import Prompta.AtMostOnce

/-!
A stop of a chat beside the delivery workers. The stop reads the response and the delivery,
cancels the delivery, reads the replies, stops the turns on the page and ends the rows, each
in a transaction of its own. A worker claims the delivery, sends it and reports; nothing
tells it that the chat was stopped in between.
-/
namespace Prompta.StopRace

open Relation Runs Tables Texts DisplayBlocks Schema ResponseStore ReplyStore DeliveryQueue Service

/-- A turn that the page may still generate. The first two fields are its key. -/
structure Target where
  conversation : String
  message : String
  replyText : Text := []
  parentId : String := ""
  ownerless : Bool := false
  deriving DecidableEq

/-- What the reopened chat shows of the saved turn. -/
inductive SavedTurn
  | unverified
  | complete
  | stopped
  deriving DecidableEq, Repr

/-- The answers of the browser: the click in the open tab, and the reopened chat. -/
structure BrowserAnswer where
  clicked : Bool
  saved : SavedTurn
  deriving DecidableEq, Repr

structure StopOutcome where
  cancelledPending : Bool
  browserStopped : Bool
  browserStopUnconfirmed : Bool
  deriving DecidableEq, Repr

/-- Where a stop stands, with what it has read. -/
inductive StopPhase
  | idle
  | recordRead (sendId : String) (record : Option ResultRow)
  | queueRead (sendId : String) (record : Option ResultRow) (queued : Option Delivery)
  | cancelled (sendId : String) (record : Option ResultRow) (queued : Option Delivery)
      (cancelled : Bool)
  | stopping (sendId : String) (record : Option ResultRow) (cancelled : Bool)
      (targets : List Target)
      (browserStopped browserStopUnconfirmed : Bool)
  | returned (sendId : String) (outcome : Except StopError StopOutcome)
  deriving DecidableEq

def recordTarget : Option ResultRow → List Target
  | none => []
  | some r =>
    if isCapturing r.status ||
        (decide (r.conversationId ≠ "") &&
          (decide (r.status = .interrupted) || decide (r.status = .unavailable))) then
      [{ conversation := r.conversationId, message := r.messageId }]
    else []

def pendingReplies (c : Chats) (sendId : String) : List ReplyRow :=
  (branchRows c sendId).filter fun r => isUnsent r.status || stopsReply r.status

def replyTarget (r : ReplyRow) : Target where
  conversation := r.conversationId
  message := r.messageId
  replyText := r.userText
  parentId := r.parentId
  ownerless := decide (r.leaseOwner = "")

def addTarget (targets : List Target) (t : Target) : List Target :=
  if targets.any fun other =>
    decide (other.conversation = t.conversation ∧ other.message = t.message) then
    targets.map fun other =>
      if other.conversation = t.conversation ∧ other.message = t.message then t else other
  else targets ++ [t]

/-- The original turn and the latest reply that was sent. -/
def stopTargets (record : Option ResultRow) (c : Chats) (sendId : String) : List Target :=
  match ((pendingReplies c sendId).filter fun r => stopsReply r.status).getLast? with
  | none => recordTarget record
  | some r => addTarget (recordTarget record) (replyTarget r)

/-- Whether the target was verified, and whether its stop was clicked. -/
def stopTarget (record : Option ResultRow) (t : Target) (answer : BrowserAnswer) : Bool × Bool :=
  if t.conversation = "" then (false, false)
  else if t.message ≠ "" ∧ answer.clicked = true then (true, true)
  else if record.isNone then (false, false)
  else
    match answer.saved with
    | .unverified => (false, false)
    | .complete => (true, false)
    | .stopped => (true, true)

/-- The next transaction of a stop. -/
def stopStep (s : Store) (answers : Bool) (answer : BrowserAnswer) (now : Time) :
    StopPhase → Store × StopPhase
  | .idle => (s, .idle)
  | .recordRead sendId record =>
    if record = none ∧ s.queue.lookup sendId = none then (s, .returned sendId (.error .runNotFound))
    else (s, .queueRead sendId record (s.queue.lookup sendId))
  | .queueRead sendId record queued =>
    let cancelled := cancelPending s sendId "Stopped by user" answers now
    (cancelled.1, .cancelled sendId record queued cancelled.2)
  | .cancelled sendId record queued cancelled =>
    let targets := stopTargets record s.chats sendId
    if (queued.any fun d => decide (d.status = .running)) && targets.isEmpty then
      (s, .returned sendId (.error .stillStarting))
    else (s, .stopping sendId record cancelled targets false false)
  | .stopping sendId record cancelled (t :: rest) browserStopped unconfirmed =>
    let outcome := stopTarget record t answer
    (s, .stopping sendId record cancelled rest (browserStopped || outcome.2)
      (unconfirmed || !outcome.1))
  | .stopping sendId _ cancelled [] browserStopped unconfirmed =>
    ({ s with chats := stopChat s.chats sendId now },
      .returned sendId (.ok ⟨cancelled, browserStopped, unconfirmed⟩))
  | .returned sendId outcome => (s, .returned sendId outcome)

/-- How far a worker is with a delivery that it has in hand. -/
inductive Progress
  | claimed
  | dispatched
  | accepted
  deriving DecidableEq, Repr

structure Claim where
  owner : String
  delivery : Delivery
  progress : Progress
  deriving DecidableEq

structure RaceState where
  store : Store
  held : List Claim
  stop : StopPhase

def RaceState.empty : RaceState := ⟨Store.empty, [], .idle⟩

/-- The calls that only a worker with a claim makes. -/
def isClaimCall (call : Call) : Bool :=
  match call.action with
  | .queue (.claimNext _ _ _ _ _) => true
  | .queue (.retryClaim _ _ _ _ _ _) => true
  | _ => false

/-- The steps of the stop, of the workers and of everything else. A worker may lose what
it has in hand at any time. -/
inductive RaceCall
  | start (sendId : String)
  | stop (answers : Bool) (answer : BrowserAnswer) (now : Time)
  | service (call : Call) (hcall : isClaimCall call = false)
  | claim (owner : String) (leaseSeconds : Time) (fireAndForget : Bool) (maxActive : Option ℕ)
      (answers : String → Bool) (now : Time)
  | prepare (claim : Claim) (now : Time)
  | dispatch (claim : Claim)
  | accepted (claim : Claim)
  | retry (claim : Claim) (retryAt : Time) (error : String) (status : DeliveryStatus) (now : Time)
  | drop (claim : Claim)

/-- The claim goes on to the next stage. -/
def advance (held : List Claim) (claim : Claim) (progress : Progress) : List Claim :=
  { claim with progress := progress } :: held.erase claim

def raceStep (lib : Stdlib) (s : RaceState) : RaceCall → RaceState × Option String
  | .start sendId =>
    match s.stop with
    | .idle => ({ s with stop := .recordRead sendId (s.store.chats.results.lookup sendId) }, none)
    | .returned _ _ =>
      ({ s with stop := .recordRead sendId (s.store.chats.results.lookup sendId) }, none)
    | _ => (s, none)
  | .stop answers answer now =>
    let next := stopStep s.store answers answer now s.stop
    ({ s with store := next.1, stop := next.2 }, none)
  | .service call _ => ({ s with store := (step lib s.store call).1 }, none)
  | .claim owner leaseSeconds fireAndForget maxActive answers now =>
    let outcome := claimNext s.store owner leaseSeconds fireAndForget maxActive answers now
    ({ s with store := outcome.1,
              held := (outcome.2.map fun d => Claim.mk owner d .claimed).toList ++ s.held }, none)
  | .prepare claim now =>
    if claim ∈ s.held then
      let d := claim.delivery
      let chats := ensureQueued s.store.chats d.sendId d.message (clientJobName d.clientId) now
      ({ s with store := { s.store with chats := chats } }, none)
    else (s, none)
  | .dispatch claim =>
    if claim ∈ s.held ∧ claim.progress = .claimed then
      ({ s with held := advance s.held claim .dispatched }, some claim.delivery.sendId)
    else (s, none)
  | .accepted claim =>
    if claim ∈ s.held ∧ claim.progress = .dispatched then
      ({ s with held := advance s.held claim .accepted }, none)
    else (s, none)
  | .retry claim retryAt error status now =>
    if claim ∈ s.held ∧ claim.progress ≠ .accepted then
      ({ s with store := (retryClaim s.store claim.delivery.sendId claim.owner retryAt
          (claim.delivery.retryAttempt + 1) error status now).1, held := s.held.erase claim }, none)
    else (s, none)
  | .drop claim => ({ s with held := s.held.erase claim }, none)

/-- The delivery is in the queue and does not wait for a worker. -/
def NotWaiting (queue : Deliveries) (sendId : String) : Prop :=
  ∃ d ∈ queue.lookup sendId, d.status.isWaiting = false

instance (queue : Deliveries) (sendId : String) : Decidable (NotWaiting queue sendId) :=
  decidable_of_iff ((queue.lookup sendId).any fun d => !d.status.isWaiting) (by
    simp [NotWaiting, Option.any_eq_true])

/-- The delivery does not wait, and no worker has it in hand before it was accepted. -/
def AtRest (s : RaceState) (sendId : String) : Prop :=
  NotWaiting s.store.queue sendId ∧
    ∀ claim ∈ s.held, claim.delivery.sendId = sendId → claim.progress = .accepted

instance (s : RaceState) (sendId : String) : Decidable (AtRest s sendId) :=
  inferInstanceAs (Decidable (_ ∧ _))

/-- The chat whose stop has cancelled nothing and goes on at this step. -/
def goesOn (s : RaceState) : RaceCall → Option String
  | .stop answers answer now =>
    match s.stop with
    | .cancelled sendId _ _ false =>
      match (stopStep s.store answers answer now s.stop).2 with
      | .returned _ _ => none
      | _ => some sendId
    | _ => none
  | _ => none

/-- A stop that has cancelled nothing goes on only when its delivery is at rest. -/
def Unraced (s : RaceState) (call : RaceCall) : Prop := ∀ sendId ∈ goesOn s call, AtRest s sendId

/-- What a stop returns that has found nothing to end. -/
def quietStop (sendId : String) : StopPhase := .returned sendId (.ok ⟨false, false, false⟩)

/-- After such a stop the delivery of the chat is not sent to the page any more. -/
def QuietStopsHold (lib : Stdlib) (run : List RaceCall) : Prop :=
  ∀ earlier later sendId, run = earlier ++ later →
    (final (raceStep lib) RaceState.empty earlier).stop = quietStop sendId →
      ∀ e ∈ events (raceStep lib) (final (raceStep lib) RaceState.empty earlier) later,
        e.output ≠ some sendId

section Queue

variable {s : Store} {sendId : String}

/-- Only a retry makes a delivery wait again. -/
theorem change_notWaiting {call : Call} {d d' : Delivery} (h : DeliveryChange s call d d')
    (hretry : ∀ owner retryAt retryAttempt error status,
      call.action ≠ .queue (.retryClaim d.sendId owner retryAt retryAttempt error status))
    (hd : d.status.isWaiting = false) : d'.status.isWaiting = false := by
  have hcontra : d.status.isWaiting ≠ true := by
    rw [hd]
    exact Bool.false_ne_true
  cases h with
  | edited _ _ _ _ h => exact absurd h hcontra
  | expired => rfl
  | confirmed => rfl
  | cancelled _ h => exact absurd h hcontra
  | leased _ _ _ _ _ _ h =>
    simp only [claimable, Bool.and_eq_true] at h
    exact absurd h.1 hcontra
  | renewed => exact hd
  | retried owner retryAt retryAttempt error status hcall =>
    exact absurd hcall (hretry owner retryAt retryAttempt error status)
  | completed => rfl
  | failed owner status error answers _ _ hterminal =>
    change status.isWaiting = false
    by_contra hwaiting
    have hnot := DeliveryStatus.waiting_not_terminal (by simpa using hwaiting)
    rw [hterminal] at hnot
    exact Bool.noConfusion hnot

/-- A delivery that does not wait only waits again when its owner gives it back. -/
theorem notWaiting_step (lib : Stdlib) (call : Call)
    (hretry : ∀ owner retryAt retryAttempt error status,
      call.action ≠ .queue (.retryClaim sendId owner retryAt retryAttempt error status))
    (h : NotWaiting s.queue sendId) : NotWaiting (step lib s call).1.queue sendId := by
  obtain ⟨d, hd, hstatus⟩ := h
  obtain ⟨d', hd', hpath⟩ := (step_deliveries s call lib).lookup_some (fun _ _ h => h.sendId_eq) hd
  have hkey : d.sendId = sendId := Table.lookup_key hd
  have hkept : d'.sendId = sendId ∧ d'.status.isWaiting = false := by
    refine reflTransGen_keeps (P := fun r => r.sendId = sendId ∧
      r.status.isWaiting = false) ?_ hpath
      ⟨hkey, hstatus⟩
    rintro a b hab ⟨hid, ha⟩
    refine ⟨hab.sendId_eq.trans hid, change_notWaiting hab ?_ ha⟩
    rw [hid]
    exact hretry
  exact ⟨d', hd', hkept.2⟩

theorem notWaiting_cancel (error : String) (answers : Bool) (now : Time)
    {k : String} (h : NotWaiting s.queue sendId) :
    NotWaiting (cancelPending s k error answers now).1.queue sendId :=
  notWaiting_step plainLib ⟨.queue (.cancelPending k error answers), now⟩
    (fun _ _ _ _ _ h => nomatch h) h

/-- A claim hands out a delivery that waits. -/
theorem claimed_ne {owner : String} {leaseSeconds : Time} {fireAndForget : Bool}
    {maxActive : Option ℕ} {answers : String → Bool} {now : Time} {d : Delivery}
    (hclaim : (claimNext s owner leaseSeconds fireAndForget maxActive answers now).2 = some d)
    (h : NotWaiting s.queue sendId) : d.sendId ≠ sendId := by
  rintro rfl
  obtain ⟨d₀, hd₀, hclaimable, _, _⟩ := AtMostOnce.claimNext_some hclaim
  obtain ⟨r, hr, hstatus⟩ := h
  unfold expireRows at hd₀
  dsimp only at hd₀
  rw [Table.lookup_update, Option.mem_def.mp hr, Option.map_some, Option.some.injEq] at hd₀
  simp only [claimable, Bool.and_eq_true] at hclaimable
  have hwaiting := hclaimable.1
  rw [← hd₀] at hwaiting
  split at hwaiting
  · exact Bool.noConfusion hwaiting
  · rw [hstatus] at hwaiting
    exact Bool.noConfusion hwaiting

theorem stopStep_notWaiting (answers : Bool) (answer : BrowserAnswer) (now : Time)
    (phase : StopPhase)
    (h : NotWaiting s.queue sendId) :
    NotWaiting (stopStep s answers answer now phase).1.queue sendId := by
  cases phase with
  | idle => exact h
  | recordRead k record =>
    dsimp only [stopStep]
    split
    · exact h
    · exact h
  | queueRead k record queued => exact notWaiting_cancel _ _ _ h
  | cancelled k record queued cancelled =>
    dsimp only [stopStep]
    split
    · exact h
    · exact h
  | stopping k record cancelled targets browserStopped unconfirmed =>
    cases targets with
    | nil => exact h
    | cons t rest => exact h
  | returned k outcome => exact h

end Queue

section Race

variable {lib : Stdlib} {s : RaceState} {sendId : String}

/-- The claims of a delivery stay behind their acceptance. -/
theorem accepted_advance {held : List Claim} {claim : Claim} {progress : Progress}
    (hheld : ∀ c ∈ held, c.delivery.sendId = sendId → c.progress = .accepted)
    (hclaim : claim.delivery.sendId = sendId → progress = .accepted) :
    ∀ c ∈ advance held claim progress, c.delivery.sendId = sendId → c.progress = .accepted := by
  intro c hc hid
  rcases List.mem_cons.mp hc with rfl | hold
  · exact hclaim hid
  · exact hheld c (List.mem_of_mem_erase hold) hid

/-- A delivery at rest stays at rest. -/
theorem atRest_step (call : RaceCall) (h : AtRest s sendId) :
    AtRest (raceStep lib s call).1 sendId := by
  obtain ⟨hwaits, hheld⟩ := h
  have hother : ∀ claim ∈ s.held, claim.progress ≠ .accepted → claim.delivery.sendId ≠ sendId :=
    fun claim hclaim hnot hid => hnot (hheld claim hclaim hid)
  cases call with
  | start k =>
    dsimp only [raceStep]
    split
    · exact ⟨hwaits, hheld⟩
    · exact ⟨hwaits, hheld⟩
    · exact ⟨hwaits, hheld⟩
  | stop answers answer now => exact ⟨stopStep_notWaiting answers answer now s.stop hwaits, hheld⟩
  | service call hcall =>
    refine ⟨notWaiting_step lib call ?_ hwaits, hheld⟩
    intro owner retryAt retryAttempt error status haction
    unfold isClaimCall at hcall
    rw [haction] at hcall
    exact Bool.noConfusion hcall
  | claim owner leaseSeconds fireAndForget maxActive answers now =>
    refine ⟨notWaiting_step lib
      ⟨.queue (.claimNext owner leaseSeconds fireAndForget maxActive answers), now⟩
      (fun _ _ _ _ _ h => nomatch h) hwaits, ?_⟩
    intro claim hclaim hid
    rcases List.mem_append.mp hclaim with hnew | hold
    · rw [Option.mem_toList] at hnew
      obtain ⟨d, hd, rfl⟩ := Option.map_eq_some_iff.mp hnew
      exact absurd hid (claimed_ne hd hwaits)
    · exact hheld claim hold hid
  | prepare claim now =>
    dsimp only [raceStep]
    split
    · exact ⟨hwaits, hheld⟩
    · exact ⟨hwaits, hheld⟩
  | dispatch claim =>
    dsimp only [raceStep]
    split
    · rename_i hguard
      refine ⟨hwaits, accepted_advance hheld fun hid => absurd hid (hother claim hguard.1 ?_)⟩
      rw [hguard.2]
      exact Progress.noConfusion
    · exact ⟨hwaits, hheld⟩
  | accepted claim =>
    dsimp only [raceStep]
    split
    · exact ⟨hwaits, accepted_advance hheld fun _ => rfl⟩
    · exact ⟨hwaits, hheld⟩
  | retry claim retryAt error status now =>
    dsimp only [raceStep]
    split
    · rename_i hguard
      constructor
      · refine notWaiting_step lib ⟨.queue (.retryClaim claim.delivery.sendId claim.owner retryAt
          (claim.delivery.retryAttempt + 1) error status), now⟩ ?_ hwaits
        rintro owner retryAt' retryAttempt error' status' haction
        cases haction
        exact hother claim hguard.1 hguard.2 rfl
      · exact fun c hc hid => hheld c (List.mem_of_mem_erase hc) hid
    · exact ⟨hwaits, hheld⟩
  | drop claim => exact ⟨hwaits, fun c hc hid => hheld c (List.mem_of_mem_erase hc) hid⟩

/-- A delivery at rest is not sent. -/
theorem atRest_output (call : RaceCall) (h : AtRest s sendId) :
    (raceStep lib s call).2 ≠ some sendId := by
  cases call with
  | dispatch claim =>
    dsimp only [raceStep]
    split
    · rename_i hguard
      intro hsent
      have haccepted := h.2 claim hguard.1 (Option.some.inj hsent)
      rw [hguard.2] at haccepted
      exact Progress.noConfusion haccepted
    · exact fun hsent => nomatch hsent
  | start k =>
    dsimp only [raceStep]
    split <;> exact fun hsent => nomatch hsent
  | prepare claim now =>
    dsimp only [raceStep]
    split <;> exact fun hsent => nomatch hsent
  | accepted claim =>
    dsimp only [raceStep]
    split <;> exact fun hsent => nomatch hsent
  | retry claim retryAt error status now =>
    dsimp only [raceStep]
    split <;> exact fun hsent => nomatch hsent
  | stop | service | claim | drop => exact fun hsent => nomatch hsent

/-- The chat of a stop that goes on, or has returned, without a cancelled delivery. -/
def quietChat : StopPhase → Option String
  | .stopping sendId _ false _ _ _ => some sendId
  | .returned sendId (.ok outcome) => if outcome.cancelledPending then none else some sendId
  | _ => none

/-- The delivery of a stop that has cancelled nothing is at rest from then on. -/
def Quieted (s : RaceState) : Prop := ∀ sendId ∈ quietChat s.stop, AtRest s sendId

/-- A stop comes to go on without a cancelled delivery at that one step. -/
theorem quietChat_stop (answers : Bool) (answer : BrowserAnswer) (now : Time)
    (hquiet : quietChat (stopStep s.store answers answer now s.stop).2 = some sendId) :
    quietChat s.stop = some sendId ∨ goesOn s (.stop answers answer now) = some sendId := by
  cases hphase : s.stop with
  | idle =>
    rw [hphase] at hquiet
    cases hquiet
  | recordRead k record =>
    rw [hphase] at hquiet
    dsimp only [stopStep] at hquiet
    split at hquiet
    · cases hquiet
    · cases hquiet
  | queueRead k record queued =>
    rw [hphase] at hquiet
    cases hquiet
  | cancelled k record queued cancelled =>
    right
    rw [hphase] at hquiet
    cases cancelled with
    | true =>
      dsimp only [stopStep] at hquiet
      split at hquiet
      · cases hquiet
      · cases hquiet
    | false =>
      simp only [goesOn, hphase]
      dsimp only [stopStep] at hquiet ⊢
      split at hquiet
      · cases hquiet
      · rename_i hgoes
        rw [if_neg hgoes]
        exact hquiet
  | stopping k record cancelled targets browserStopped unconfirmed =>
    left
    rw [hphase] at hquiet
    cases targets with
    | cons t rest =>
      cases cancelled with
      | true => cases hquiet
      | false => exact hquiet
    | nil =>
      cases cancelled with
      | true => cases hquiet
      | false => exact hquiet
  | returned k outcome =>
    left
    rw [hphase] at hquiet
    exact hquiet

theorem stop_kept (call : RaceCall) (hstart : ∀ k, call ≠ .start k)
    (hstop : ∀ answers answer now, call ≠ .stop answers answer now) :
    (raceStep lib s call).1.stop = s.stop := by
  cases call with
  | start k => exact absurd rfl (hstart k)
  | stop answers answer now => exact absurd rfl (hstop answers answer now)
  | service | claim | drop => rfl
  | _ =>
    dsimp only [raceStep]
    split
    · rfl
    · rfl

theorem quieted_step (call : RaceCall) (hcall : Unraced s call) (h : Quieted s) :
    Quieted (raceStep lib s call).1 := by
  intro sendId hquiet
  have hkept : (raceStep lib s call).1.stop = s.stop → AtRest (raceStep lib s call).1 sendId := by
    intro hsame
    rw [hsame] at hquiet
    exact atRest_step call (h sendId hquiet)
  cases call with
  | start k =>
    dsimp only [raceStep] at hquiet hkept ⊢
    split at hquiet
    · cases hquiet
    · cases hquiet
    · exact h sendId hquiet
  | stop answers answer now =>
    rcases quietChat_stop answers answer now hquiet with hold | hgoes
    · exact atRest_step _ (h sendId hold)
    · exact atRest_step _ (hcall sendId hgoes)
  | _ => exact hkept (stop_kept _ (fun _ hcall => nomatch hcall) (fun _ _ _ hcall => nomatch hcall))

/-- What is at rest is not sent in any later run. -/
theorem atRest_run (run : List RaceCall) (h : AtRest s sendId) :
    ∀ e ∈ events (raceStep lib) s run, e.output ≠ some sendId := by
  induction run generalizing s with
  | nil => exact fun e he => nomatch he
  | cons call rest ih =>
    intro e he
    rcases List.mem_cons.mp he with rfl | hlater
    · exact atRest_output call h
    · exact ih (atRest_step call h) e hlater

end Race

/-- A stop that finds nothing to end leaves the delivery unsent for good, as long as no
worker has it in hand when the stop goes on. -/
theorem quiet_stops_hold (lib : Stdlib) (run : List RaceCall)
    (hrun : Meets (raceStep lib) Unraced RaceState.empty run) : QuietStopsHold lib run := by
  rintro earlier later sendId rfl hstop
  have hquieted : Quieted (final (raceStep lib) RaceState.empty earlier) := by
    refine meets_invariant (raceStep lib) Unraced Quieted
      (fun s call hcall h => quieted_step call hcall h)
      RaceState.empty ?_ earlier ((meets_append _ _ _ _ _).mp hrun).1
    exact fun sendId hquiet => nomatch hquiet
  refine atRest_run later (hquieted sendId ?_)
  rw [hstop]
  rfl

def claimedDelivery : Delivery :=
  { sequence := 1, sendId := "manual-1", message := ['h', 'i'], status := .running, createdAt := 10,
    updatedAt := 12, leaseOwner := "worker", leaseAcquiredAt := 12, leaseExpiresAt := 312 }

def queuedCall : RaceCall :=
  .service ⟨.queue (.enqueue { sendId := "manual-1", message := ['h', 'i'] } true), 10⟩ rfl

def claimCall : RaceCall := .claim "worker" 300 false none (fun _ => true) 12

def stopCall : RaceCall := .stop true ⟨false, .unverified⟩ 13

def submittedRun : List RaceCall :=
  [queuedCall, claimCall, .dispatch ⟨"worker", claimedDelivery, .claimed⟩,
    .service ⟨.result (.markSubmitted "manual-1"), 12⟩ rfl,
    .accepted ⟨"worker", claimedDelivery, .dispatched⟩,
    .service ⟨.queue (.completeClaim "manual-1" "worker"), 12⟩ rfl,
    .start "manual-1", stopCall, stopCall, stopCall, stopCall]

theorem quiet_stop_submitted :
    (final (raceStep plainLib) RaceState.empty submittedRun).stop = quietStop "manual-1" ∧
      QuietStopsHold plainLib
        (submittedRun ++ [claimCall, .dispatch ⟨"worker", claimedDelivery, .claimed⟩]) := by
  refine ⟨by decide +kernel, quiet_stops_hold plainLib _ ⟨?_, ?_, ?_, ?_, ?_, ?_, ?_, ?_, ?_, ?_,
    ?_, ?_, ?_, True.intro⟩⟩
  all_goals
    unfold Unraced
    decide +kernel

/-- The worker claims the delivery between the read of the queue and the cancellation. -/
def racedRun : List RaceCall :=
  [queuedCall, .start "manual-1", stopCall, claimCall, stopCall, stopCall, stopCall]

theorem claimed_delivery_sent :
    ¬ QuietStopsHold plainLib (racedRun ++ [.dispatch ⟨"worker", claimedDelivery, .claimed⟩]) := by
  intro hholds
  have hquiet : (final (raceStep plainLib) RaceState.empty racedRun).stop =
      quietStop "manual-1" := by
    decide +kernel
  have hsent : (raceStep plainLib (final (raceStep plainLib) RaceState.empty racedRun)
      (.dispatch ⟨"worker", claimedDelivery, .claimed⟩)).2 = some "manual-1" := by decide +kernel
  exact hholds racedRun _ "manual-1" rfl hquiet _ List.mem_cons_self hsent

end Prompta.StopRace
