import Prompta.FreshSender

/-!
A fresh chat is sent again only after a refusal. A worker that has a delivery in hand holds its
row, and the row stays held unless the worker gives it back. A thread that has clicked never
leads to that by itself: only an answer of the server, a notice of a limit, or the prompt that
is still in the composer does. Whatever else happens, be it a lost answer, a missed deadline, a
lost lease or the death of the worker, the send control is not clicked again for the delivery.
-/
namespace Prompta.FreshResends

open Runs Tables Texts DisplayBlocks Schema ResponseStore DeliveryQueue AtMostOnce DeadLetters
  FreshSender
open ReplyDispatcher (clickSend showsMessage succeeded)
open Service (ServiceEvent)

def givesBack : AttemptOutcome → Bool
  | .rateLimited _ _ => true
  | .browserUnavailable _ => true
  | .notAccepted _ => true
  | .unexpected _ => true
  | .sent _ => false
  | .outcomeUnknown _ => false

def isRejection : Failure → Bool
  | .rateLimited _ _ => true
  | .notAccepted _ => true
  | _ => false

/-- The server refused the captured request. -/
def Refused (c : SendCapture) : Prop := 400 ≤ c.status ∧ c.status < 500

/-- The thread reads, while it confirms its click, that the prompt was not accepted. -/
def Rejected (p : Setup) (t : Sender) (r : Reading) : Prop :=
  t.stage = .confirm ∧
    (Refused r.confirmation.capture ∨
      (r.confirmation.state = none ∧ Refused r.confirmation.captureAfter) ∨
      (r.confirmation.capture.status < 500 ∧ ∃ state, r.confirmation.state = some state ∧
        isRateLimitedText p state.rateLimitText = true) ∨
      (r.elapsed = true ∧ r.confirmation.capture.isConfirmed = false ∧ remains p t = true))

def isEarly : Stage → Bool
  | .start => true
  | .connect => true
  | .openTab => true
  | .awaitComposer => true
  | .freshRoute => true
  | .effort => true
  | .baseline => true
  | .baselineRoute => true
  | .clearDraft => true
  | .verifyClear => true
  | .observePage => true
  | .insertPrompt => true
  | .attachImages => true
  | .verifyPrompt => true
  | .predispatchRoute => true
  | .click => true
  | _ => false

/-- The stages that follow a confirmation, or are one. -/
def isLoud : Stage → Bool
  | .confirm => true
  | .activity _ => true
  | .receipt _ => true
  | .route _ => true
  | .handOver _ _ => true
  | .capture => true
  | .unavailable => true
  | _ => false

section Threads

variable {p : Setup} {t : Sender} {r : Reading}

def Untried (t : Progress) : Prop :=
  t.confirmed = false ∧ t.handshake = false ∧ t.error = none

theorem goTo_early {next : Stage} (h : isEarly (t.goTo r next).stage = true) :
    t.goTo r next = { t.toProgress with stage := next } := by
  unfold Sender.goTo at h ⊢
  split at h
  · cases h
  · rename_i hraises
    rw [if_neg hraises]

theorem checkRoute_early {error : String} {next : Progress}
    (h : isEarly (t.checkRoute r error next).stage = true) :
    t.checkRoute r error next = next := by
  unfold Sender.checkRoute at h ⊢
  split at h
  · cases h
  · rename_i hraises
    rw [if_neg hraises]
    split at h
    · cases h
    · rename_i hpath
      rw [if_neg hpath]

theorem ready_early {page : PageState} (h : isEarly (t.ready p page).stage = true) :
    t.ready p page = { t.toProgress with page := page, stage := .observePage } := by
  unfold Sender.ready at h ⊢
  split at h
  · cases h
  · rename_i hlimited
    rw [if_neg hlimited]

theorem clicked_late : isEarly (t.clicked p r).stage = false := by
  unfold Sender.clicked
  dsimp only
  repeat' split
  all_goals rfl

theorem clickedQuietly_late : isEarly (t.clickedQuietly p r).stage = false := by
  unfold Sender.clickedQuietly
  dsimp only
  repeat' split
  all_goals rfl

theorem confirmRound_late {c : Confirmation} (h : t.stage = .confirm) :
    isEarly (t.confirmRound p c).stage = false := by
  unfold Sender.confirmRound
  dsimp only
  repeat' split
  all_goals first
    | rfl
    | rw [h]; rfl

theorem confirmEnd_late {c : SendCapture} : isEarly (t.confirmEnd p c).stage = false := by
  unfold Sender.confirmEnd
  repeat' split
  all_goals rfl

/-- A thread that has not clicked was started so, and shows nothing yet. -/
theorem resume_early {ok : Bool} (h : isEarly (t.resume p r ok).stage = true) :
    isEarly t.stage = true ∧ (Untried t.toProgress → Untried (t.resume p r ok)) := by
  unfold Sender.resume at h ⊢
  split at h
  · cases h
  rename_i hdeadline
  rw [if_neg hdeadline]
  cases hstage : t.stage <;> simp only [hstage] at h ⊢
  case start =>
    split at h
    · cases h
    · rename_i hraises
      rw [if_neg hraises]
      exact ⟨rfl, id⟩
  case connect => exact ⟨rfl, by rw [goTo_early h]; exact id⟩
  case openTab => exact ⟨rfl, by rw [goTo_early h]; exact id⟩
  case awaitComposer => exact ⟨rfl, by rw [goTo_early h]; exact id⟩
  case freshRoute => exact ⟨rfl, by rw [checkRoute_early h]; exact id⟩
  case effort => exact ⟨rfl, by rw [goTo_early h]; exact id⟩
  case baseline => exact ⟨rfl, by rw [goTo_early h]; exact id⟩
  case baselineRoute =>
    refine ⟨rfl, ?_⟩
    have hnext := checkRoute_early h
    rw [hnext] at h ⊢
    split at h
    · rename_i hempty
      rw [if_pos hempty, ready_early h]
      exact id
    · rename_i hdraft
      rw [if_neg hdraft]
      exact id
  case clearDraft => exact ⟨rfl, by rw [goTo_early h]; exact id⟩
  case verifyClear =>
    refine ⟨rfl, ?_⟩
    split at h
    · cases h
    rename_i hraises
    rw [if_neg hraises]
    split at h
    · cases h
    rename_i hdraft
    rw [if_neg hdraft, ready_early h]
    exact id
  case observePage => exact ⟨rfl, id⟩
  case insertPrompt => exact ⟨rfl, by rw [goTo_early h]; exact id⟩
  case attachImages => exact ⟨rfl, by rw [goTo_early h]; exact id⟩
  case verifyPrompt =>
    refine ⟨rfl, ?_⟩
    split at h
    · cases h
    rename_i hraises
    rw [if_neg hraises]
    split at h
    · rename_i hshows
      rw [if_pos hshows]
      exact id
    · cases h
  case predispatchRoute => exact ⟨rfl, by rw [checkRoute_early h]; exact id⟩
  case click =>
    split at h
    · rw [clickedQuietly_late] at h
      cases h
    · rw [clicked_late] at h
      cases h
  case confirm =>
    split at h
    · rw [confirmEnd_late] at h
      cases h
    · rw [confirmRound_late hstage] at h
      cases h
  case handOver saved observation =>
    unfold afterHandOver at h
    repeat' split at h
    all_goals cases h
  all_goals
    repeat' split at h
    all_goals first
      | cases h
      | (rw [hstage] at h; cases h)

/-- The thread has used the send control, and the send was not refused. -/
structure Committed (quiet : Bool) (t : Progress) : Prop where
  late : isEarly t.stage = false
  started : t.started = true
  loud : quiet = true → isLoud t.stage = false
  error : ∀ failure, t.error = some failure →
    isRejection failure = false ∧ (quiet = true → failure.isVerdict = true)

/-- A failure behind the start of the dispatch, other than a rejection, commits the attempt. -/
theorem fail_committed {quiet : Bool} {failure : Failure} (hstarted : t.started = true)
    (hfailure : isRejection failure = false)
    (hverdict : quiet = true → failure.isVerdict = true) :
    Committed quiet (t.fail failure) where
  late := rfl
  started := hstarted
  loud := fun _ => rfl
  error := by
    intro other hother
    obtain rfl := Option.some.inj hother
    exact ⟨hfailure, hverdict⟩

theorem Committed.stage {quiet : Bool} {t : Progress} (h : Committed quiet t) {next : Stage}
    (hlate : isEarly next = false) (hloud : quiet = true → isLoud next = false) :
    Committed quiet { t with stage := next } :=
  ⟨hlate, h.started, hloud, h.error⟩

theorem refusal_refused {c : SendCapture} {failure : Failure} (h : c.refusal = some failure) :
    Refused c := by
  unfold SendCapture.refusal at h
  unfold Refused
  split at h
  · omega
  split at h
  · assumption
  · cases h

/-- One round of the confirmation keeps the click, or reads a refusal. -/
theorem confirmRound_committed (ht : Committed t.quiet t.toProgress) (hquiet : t.quiet = false)
    (hstage : t.stage = .confirm) :
    Committed t.quiet (t.confirmRound p r.confirmation) ∨ Rejected p t r := by
  have haccept : ∀ observation, Committed t.quiet (t.accept observation) :=
    fun observation => ht.stage rfl (by simp [hquiet])
  have hwatch : ∀ watch, Committed t.quiet { t.toProgress with watch := watch } :=
    fun watch => ⟨ht.late, ht.started, ht.loud, ht.error⟩
  unfold Sender.confirmRound
  dsimp only
  split
  · rename_i failure hrefusal
    exact Or.inr ⟨hstage, Or.inl (refusal_refused hrefusal)⟩
  split
  · exact Or.inl (fail_committed ht.started rfl fun _ => rfl)
  split
  · exact Or.inl (haccept none)
  split
  · rename_i hstate
    split
    · rename_i failure hrefusal
      exact Or.inr ⟨hstage, Or.inr (Or.inl ⟨hstate, refusal_refused hrefusal⟩)⟩
    split
    · exact Or.inl (haccept none)
    · exact Or.inl (hwatch _)
  · rename_i state hstate
    split
    · rename_i hlimited
      exact Or.inr ⟨hstage, Or.inr (Or.inr (Or.inl ⟨hlimited.1, state, hstate, hlimited.2⟩))⟩
    split
    · exact Or.inl (haccept _)
    split
    · exact Or.inl (haccept none)
    · exact Or.inl (hwatch _)

/-- So does the last look. -/
theorem confirmEnd_committed (ht : Committed t.quiet t.toProgress) (hquiet : t.quiet = false)
    (hstage : t.stage = .confirm) (helapsed : r.elapsed = true) :
    Committed t.quiet (t.confirmEnd p r.confirmation.capture) ∨ Rejected p t r := by
  unfold Sender.confirmEnd
  split
  · exact Or.inr ⟨hstage, Or.inl ⟨by omega, by omega⟩⟩
  split
  · exact Or.inl (fail_committed ht.started rfl fun _ => rfl)
  split
  · exact Or.inr ⟨hstage, Or.inl ⟨by omega, by omega⟩⟩
  split
  · exact Or.inl (fail_committed ht.started rfl fun _ => rfl)
  split
  · exact Or.inl (ht.stage rfl (by simp [hquiet]))
  rename_i hconfirmed
  split
  · rename_i hremains
    exact Or.inr ⟨hstage, Or.inr (Or.inr (Or.inr
      ⟨helapsed, Bool.eq_false_iff.mpr hconfirmed, hremains⟩))⟩
  · exact Or.inl (fail_committed ht.started rfl fun _ => rfl)

/-- A thread that has clicked keeps it, or reads a refusal. -/
theorem resume_committed {ok : Bool} (ht : Committed t.quiet t.toProgress) :
    Committed t.quiet (t.resume p r ok) ∨ Rejected p t r := by
  have hloud : isLoud t.stage = true → t.quiet = false := by
    intro h
    by_contra hquiet
    rw [ht.loud (by simpa using hquiet)] at h
    cases h
  have hlate := ht.late
  unfold Sender.resume
  split
  · rename_i hdeadline
    refine Or.inl (fail_committed (by simp [ht.started]) rfl ?_)
    intro hquiet
    simp [hquiet] at hdeadline
  cases hstage : t.stage <;> simp only [hstage, isLoud, isEarly] at hloud hlate ⊢
  case confirm =>
    split
    · rename_i helapsed
      exact confirmEnd_committed ht (hloud trivial) hstage helapsed
    · exact confirmRound_committed ht (hloud trivial) hstage
  case markSubmitted =>
    left
    split
    · exact fail_committed ht.started rfl fun _ => rfl
    split
    · exact ht.stage rfl fun _ => rfl
    · exact fail_committed ht.started rfl fun _ => rfl
  case activity observation =>
    left
    split
    · exact fail_committed ht.started rfl (by simp [hloud])
    split
    · exact ⟨rfl, ht.started, by simp [hloud], ht.error⟩
    · exact ht.stage rfl (by simp [hloud])
  case receipt observation =>
    left
    split
    · exact ht.stage rfl (by simp [hloud])
    split
    · exact fail_committed ht.started rfl fun _ => rfl
    · exact ht.stage rfl (by simp [hloud])
  case route observation => exact Or.inl (ht.stage rfl (by simp [hloud]))
  case handOver saved observation =>
    left
    refine ⟨?_, ht.started, by simp [hloud], ht.error⟩
    unfold afterHandOver
    repeat' split
    all_goals rfl
  case capture =>
    left
    split
    · exact ht.stage rfl (by simp [hloud])
    · exact ht
  case unavailable => exact Or.inl (ht.stage rfl (by simp [hloud]))
  case ended => exact Or.inl ht
  all_goals cases hlate

/-- The click itself. -/
theorem click_committed {ok : Bool} (hclick : t.stage = .click) (ht : Untried t.toProgress) :
    Committed t.quiet (t.resume p r ok) := by
  have herror : ∀ failure, t.error = some failure →
      isRejection failure = false ∧ (t.quiet = true → failure.isVerdict = true) := by
    intro failure hfailure
    rw [ht.2.2] at hfailure
    cases hfailure
  unfold Sender.resume
  split
  · rename_i hdeadline
    refine fail_committed (by simp [hclick, Stage.isClick]) rfl ?_
    intro hquiet
    simp [hquiet] at hdeadline
  simp only [hclick]
  split
  · unfold Sender.clickedQuietly
    dsimp only
    split
    · exact fail_committed rfl rfl fun _ => rfl
    split
    · exact ⟨rfl, rfl, fun _ => rfl, herror⟩
    split
    · exact fail_committed rfl rfl fun _ => rfl
    · exact fail_committed rfl rfl fun _ => rfl
  · rename_i hquiet
    have hwatch : ∀ watch, Committed t.quiet
        { t.toProgress with started := true, stage := .confirm, watch := watch } :=
      fun watch => ⟨rfl, rfl, by simp [hquiet], herror⟩
    unfold Sender.clicked
    dsimp only
    split
    · exact hwatch _
    split
    · exact hwatch _
    split
    · exact hwatch _
    · exact fail_committed rfl rfl fun _ => rfl

/-- A thread that has clicked gives nothing back, whatever the main thread learns from it. -/
theorem committed_handedOver (ht : Committed false t.toProgress) :
    givesBack t.handedOver = false := by
  unfold Sender.handedOver
  split
  · rfl
  split
  · rfl
  split
  · rw [if_pos ht.started]
    rfl
  · rename_i failure _ herror
    rw [ht.started, Bool.true_and]
    have hrejection := (ht.error failure herror).1
    cases failure <;> first
      | rfl
      | cases hrejection
  · rw [if_pos ht.started]
    rfl

theorem committed_returned (ht : Committed true t.toProgress) : givesBack t.returned = false := by
  unfold Sender.returned
  split
  · rfl
  · rename_i failure herror
    obtain ⟨hrejection, hverdict⟩ := ht.error failure herror
    cases failure with
    | rateLimited retryAfter error => cases hrejection
    | notAccepted error => cases hrejection
    | outcomeUnknown error stage => rfl
    | browserUnavailable error => cases hverdict rfl
    | timeout => cases hverdict rfl
    | other error => cases hverdict rfl

end Threads

def record : Main → Option Delivery
  | .check record => some record
  | .cancel record => some record
  | .prepare record _ => some record
  | .submittedBefore record _ _ => some record
  | .spawn record _ _ => some record
  | .handoff record _ => some record
  | .settle record _ _ => some record
  | _ => none

def Handles (w : Worker) (k : String) : Prop := ∃ d, record w.main = some d ∧ d.sendId = k

/-- A thread of the worker may still click for the delivery. -/
def Armed (w : World) (pid attempt : ℕ) (k : String) : Prop :=
  ∃ t, w.sender pid attempt = some t ∧ t.sendId = k ∧ isEarly t.stage = true

/-- The main thread waits for the attempt, or will keep the delivery. -/
def Awaits (main : Main) (attempt : ℕ) (k : String) : Prop :=
  match main with
  | .handoff d n => d.sendId = k ∧ n = attempt
  | .settle d _ outcome => d.sendId = k ∧ givesBack outcome = false
  | _ => False

/-- Nobody has the delivery in hand, and its row is held for good. -/
def Sealed (k : String) (w : World) : Prop :=
  (∀ pid, ¬Handles (w.workers pid) k) ∧ ∃ owner, HeldIn k owner w.store

/-- What holds of one delivery between the workers and the queue. -/
structure Fair (k : String) (w : World) : Prop where
  one : ∀ pid pid', Handles (w.workers pid) k → Handles (w.workers pid') k → pid = pid'
  held : ∀ pid, Handles (w.workers pid) k → HeldIn k (w.workers pid).owner w.store
  untried : ∀ pid attempt t, w.sender pid attempt = some t → isEarly t.stage = true →
    Untried t.toProgress
  armed : ∀ pid attempt, Armed w pid attempt k →
    Awaits (w.workers pid).main attempt k ∨ Sealed k w
  single : ∀ pid attempt pid' attempt', Armed w pid attempt k → Armed w pid' attempt' k →
    pid = pid' ∧ attempt = attempt'

theorem awaits_handles {w : Worker} {attempt : ℕ} {k : String} (h : Awaits w.main attempt k) :
    Handles w k := by
  unfold Awaits at h
  split at h
  · rename_i d n hmain
    exact ⟨d, by rw [hmain]; rfl, h.1⟩
  · rename_i d n outcome hmain
    exact ⟨d, by rw [hmain]; rfl, h.1⟩
  · exact h.elim

section Stores

variable {p : Setup} {w : World} {m : Move} {k owner : String}

/-- Every receipt other than a retry leaves the row to its owner. -/
theorem queueStep_held {s : Store} {now : Time} {call : Service.QueueCall} (lib : Stdlib)
    (h : HeldIn k owner s)
    (hcall : ∀ retryAt retryAttempt error status,
      call ≠ .retryClaim k owner retryAt retryAttempt error status) :
    HeldIn k owner (Service.queueStep s now call).1 := by
  refine step_held lib s ⟨.queue call, now⟩ k owner ?_ h
  rintro ⟨retryAt, retryAttempt, error, status, haction⟩
  exact hcall _ _ _ _ (Service.Action.queue.inj haction)

theorem resultStep_held {lib : Stdlib} {s : Store} {now : Time} {call : Service.ResultCall}
    (h : HeldIn k owner s) : HeldIn k owner (Service.resultStep lib s now call).1 := by
  refine step_held lib s ⟨.result call, now⟩ k owner ?_ h
  rintro ⟨retryAt, retryAttempt, error, status, hcall⟩
  cases hcall

/-- A settlement takes a held row away only where it gives the delivery back. -/
theorem deliverOne_held (lib : Stdlib) {s : Store} {d : Delivery} {a : Attempt} {owner' : String}
    (h : HeldIn k owner s) (hpresent : a.removed = none)
    (hkeeps : d.sendId = k → givesBack a.outcome = false) :
    HeldIn k owner (deliverOne s owner' d a) := by
  by_cases hk : d.sendId = k
  · have hkeeps := hkeeps hk
    unfold deliverOne
    rw [hpresent]
    dsimp only
    cases houtcome : a.outcome with
    | sent leaseLost =>
      cases leaseLost with
      | true => exact h
      | false =>
        change HeldIn k owner (Service.queueStep s a.now (.completeClaim d.sendId owner')).1
        exact queueStep_held lib h (by simp)
    | outcomeUnknown error =>
      change HeldIn k owner (Service.queueStep s a.now
        (.failClaim d.sendId owner' .outcomeUnknown error a.answers)).1
      exact queueStep_held lib h (by simp)
    | rateLimited retryAfter error =>
      rw [houtcome] at hkeeps
      cases hkeeps
    | browserUnavailable error =>
      rw [houtcome] at hkeeps
      cases hkeeps
    | notAccepted error =>
      rw [houtcome] at hkeeps
      cases hkeeps
    | unexpected error =>
      rw [houtcome] at hkeeps
      cases hkeeps
  · rcases deliverOne_receipt lib s owner' d a with hsame | ⟨call, hreceipt, hstep⟩
    · rw [hsame]
      exact h
    · rw [hstep]
      refine queueStep_held lib h ?_
      rintro retryAt retryAttempt error status rfl
      cases hreceipt
      exact hk rfl

theorem settled_givesBack (w : Worker) (attempt : ℕ) (o : AttemptOutcome) :
    givesBack (w.settled attempt o) = givesBack o := by
  cases o <;> rfl

/-- Only a settlement that gives the delivery back takes its row from the owner. -/
theorem stored_held (h : HeldIn k owner w.store)
    (hkeeps : ∀ pid r d attempt o, m = .main pid r → (w.workers pid).main = .settle d attempt o →
      d.sendId = k → givesBack o = false) : HeldIn k owner (stored p w m).1 := by
  unfold stored
  cases m with
  | service call hcall =>
    refine step_held p.lib w.store call k owner ?_ h
    rintro ⟨retryAt, retryAttempt, error, status, haction⟩
    unfold isWorkerCall at hcall
    rw [haction] at hcall
    cases hcall
  | main pid r =>
    dsimp only [Worker.mainStore]
    split
    · exact h
    split
    · split
      · exact queueStep_held p.lib h (by simp)
      · exact h
    · exact queueStep_held p.lib h (by simp)
    · exact queueStep_held p.lib h (by simp)
    · split
      · exact h
      · exact h
    · rename_i d attempt o hmain
      refine deliverOne_held p.lib h rfl ?_
      intro hk
      rw [settled_givesBack]
      exact hkeeps pid r d attempt o rfl hmain hk
    · exact h
  | sender pid attempt r =>
    dsimp only
    split
    · exact h
    · exact resultStep_held h
  | renewer pid attempt r =>
    dsimp only
    split
    · exact h
    · rename_i call hcall
      refine queueStep_held p.lib h ?_
      rintro retryAt retryAttempt error status rfl
      obtain ⟨t, _, ht⟩ := Option.bind_eq_some_iff.mp hcall
      unfold Renewer.action at ht
      repeat' split at ht
      all_goals cases ht
  | start pid owner fireAndForget => exact h
  | kill pid => exact h

/-- A claim finds a row that nobody holds, and holds it from then on. -/
theorem stored_claims {pid : ℕ} {r : Reading} {d : Delivery} (hm : m = .main pid r)
    (hmain : (w.workers pid).main = .claim) (hanswer : (stored p w m).2 = .delivery (some d)) :
    HeldIn d.sendId (w.workers pid).owner (stored p w m).1 ∧
      ∀ owner, ¬HeldIn d.sendId owner w.store := by
  subst hm
  have hstep : stored p w (.main pid r) = Service.step p.lib w.store
      ⟨.queue (.claimNext (w.workers pid).owner leaseSeconds (w.workers pid).fireAndForget
        r.maxActive r.answersFor), r.now⟩ := by
    unfold stored Worker.mainStore at hanswer ⊢
    dsimp only at hanswer ⊢
    split at hanswer
    · cases hanswer
    · rename_i hraises
      rw [if_neg hraises, hmain]
      rfl
  let e : ServiceEvent :=
    ⟨w.store, ⟨.queue (.claimNext (w.workers pid).owner leaseSeconds
      (w.workers pid).fireAndForget r.maxActive r.answersFor), r.now⟩,
      .delivery (some d), (stored p w (.main pid r)).1⟩
  have hout : HandsOut e d.sendId (w.workers pid).owner := ⟨_, _, _, _, d, rfl, rfl, rfl⟩
  have hevent : Service.step p.lib e.pre e.input = (e.post, e.output) := by
    rw [← hstep]
    exact Prod.ext rfl hanswer
  exact ⟨held_after_claim p.lib e _ _ hevent hout,
    fun owner hheld => not_held_before_claim p.lib e _ owner _ hevent hout hheld⟩

end Stores

section Workers

variable {p : Setup} {w : Worker} {s : Store} {r : Reading} {answer : Service.Output}

@[simp] theorem resumeMain_owner : (w.resumeMain s r answer).owner = w.owner := by
  unfold Worker.resumeMain
  repeat' split
  all_goals rfl

/-- The main thread takes a delivery in hand by a claim only. -/
theorem resumeMain_record {d : Delivery} (h : record (w.resumeMain s r answer).main = some d) :
    record w.main = some d ∨ w.main = .claim ∧ answer = .delivery (some d) := by
  unfold Worker.resumeMain at h
  cases hmain : w.main <;> simp only [hmain] at h
  case claim =>
    split at h
    · obtain rfl := Option.some.inj h
      exact Or.inr ⟨rfl, rfl⟩
    · cases h
  case settle => cases h
  all_goals
    repeat' split at h
    all_goals first
      | exact Or.inl h
      | (rw [hmain] at h; exact Or.inl h)
      | cases h

/-- A thread is started for the delivery in hand. -/
theorem resumeMain_senders {attempt : ℕ} {t : Sender}
    (h : (w.resumeMain s r answer).senders.lookup attempt = some t) :
    w.senders.lookup attempt = some t ∨
      (∃ d message, w.main = .spawn d attempt message ∧
        (w.resumeMain s r answer).main = .handoff d attempt ∧ t.sendId = d.sendId ∧
        t.stage = .start ∧ Untried t.toProgress) := by
  unfold Worker.resumeMain at h ⊢
  cases hmain : w.main <;> simp only [hmain] at h ⊢
  case spawn d n message =>
    split at h
    · exact Or.inl h
    · rename_i hraises
      rw [if_neg hraises]
      rcases Table.mem_insertNew (Table.lookup_mem h) with hold | ⟨hnew, _⟩
      · left
        rw [← Table.lookup_key h]
        exact Table.lookup_of_mem hold
      · have hattempt := Table.lookup_key h
        subst hnew
        dsimp only at hattempt
        subst hattempt
        exact Or.inr ⟨d, message, rfl, rfl, rfl, rfl, rfl, rfl, rfl⟩
  case settle => exact Or.inl h
  all_goals
    repeat' split at h
    all_goals exact Or.inl h

/-- Whatever the main thread learns from the thread, it keeps the delivery. -/
def Firm (t : Sender) : Prop :=
  (t.quiet = true → t.stage.isEnded = true → givesBack t.returned = false) ∧
    (t.quiet = false → givesBack t.handedOver = false)

theorem early_firm {t : Sender} (hearly : isEarly t.stage = true) (ht : Untried t.toProgress) :
    Firm t := by
  refine ⟨?_, ?_⟩
  · intro _ hended
    cases hstage : t.stage <;> simp [hstage, isEarly, Stage.isEnded] at hearly hended
  · intro _
    unfold Sender.handedOver
    rw [if_neg (by simp [ht.1]), if_pos (by simp [ht.2.1])]
    rfl

theorem committed_firm {t : Sender} (ht : Committed t.quiet t.toProgress) : Firm t := by
  refine ⟨?_, ?_⟩
  · intro hquiet _
    rw [hquiet] at ht
    exact committed_returned ht
  · intro hquiet
    rw [hquiet] at ht
    exact committed_handedOver ht

/-- The main thread keeps waiting, or comes to keep the delivery, or has settled it so. -/
theorem resumeMain_awaits {attempt : ℕ} {k : String} {t : Sender} (h : Awaits w.main attempt k)
    (ht : w.senders.lookup attempt = some t) (hfirm : Firm t) :
    Awaits (w.resumeMain s r answer).main attempt k ∨
      record (w.resumeMain s r answer).main = none ∧
        ∃ d n o, w.main = .settle d n o ∧ givesBack o = false := by
  unfold Worker.resumeMain
  cases hmain : w.main <;> rw [hmain] at h <;> dsimp only [Awaits] at h
  case handoff d n =>
    obtain ⟨hk, rfl⟩ := h
    obtain ⟨hquiet, hloud⟩ := hfirm
    left
    simp only [ht]
    split
    · rename_i hmode
      split
      · rename_i hended
        exact ⟨hk, hquiet hmode hended⟩
      · rw [hmain]
        exact ⟨hk, rfl⟩
    · rename_i hmode
      split
      · exact ⟨hk, hloud (by simpa using hmode)⟩
      · rw [hmain]
        exact ⟨hk, rfl⟩
  case settle d n o => exact Or.inr ⟨rfl, d, n, o, rfl, h.2⟩

theorem resumeMain_sender {attempt : ℕ} {t : Sender} (h : w.senders.lookup attempt = some t) :
    (w.resumeMain s r answer).senders.lookup attempt = some t := by
  unfold Worker.resumeMain
  cases w.main with
  | spawn d n message =>
    dsimp only
    split
    · exact h
    · by_cases hn : attempt = n
      · subst hn
        rw [Table.insertNew_eq_self (by rw [h]; simp)]
        exact h
      · rw [Table.lookup_insertNew_ne _ _ hn]
        exact h
  | _ =>
    dsimp only
    repeat' split
    all_goals exact h

end Workers

section Steps

variable {p : Setup} {w : World} {m : Move} {k : String}

/-- What a move makes of a worker. -/
inductive Turn (p : Setup) (w : World) (answer : Service.Output) (pid : ℕ) : Move → Worker → Prop
  | rests {m : Move} : Turn p w answer pid m (w.workers pid)
  | begins {owner : String} {fireAndForget : Bool} :
    Turn p w answer pid (.start pid owner fireAndForget)
      ((w.workers pid).begin owner fireAndForget)
  | resumes {r : Reading} :
    Turn p w answer pid (.main pid r) ((w.workers pid).resumeMain w.store r answer)
  | sends {attempt : ℕ} {r : Reading} {t : Sender} (ht : w.sender pid attempt = some t) :
    Turn p w answer pid (.sender pid attempt r)
      ((w.workers pid).placeSender attempt (t.resume p r (succeeded answer)))
  | renews {attempt : ℕ} {r : Reading} {t : Renewer}
      (ht : (w.workers pid).renewers.lookup attempt = some t) :
    Turn p w answer pid (.renewer pid attempt r)
      ((w.workers pid).placeRenewer attempt (t.resume r (succeeded answer)))
  | dies : Turn p w answer pid (.kill pid) {}

theorem moved_turn (answer : Service.Output) (pid : ℕ) :
    Turn p w answer pid m (moved p w answer m pid) := by
  have hmove : ∀ {q : ℕ} {v : Worker}, (pid = q → Turn p w answer pid m v) →
      Turn p w answer pid m (Function.update w.workers q v pid) := by
    intro q v hv
    by_cases hq : pid = q
    · subst hq
      rw [Function.update_self]
      exact hv rfl
    · rw [Function.update_of_ne hq]
      exact .rests
  unfold moved
  cases m with
  | service call hcall => exact .rests
  | start q owner fireAndForget => exact hmove fun hq => hq ▸ .begins
  | main q r => exact hmove fun hq => hq ▸ .resumes
  | sender q n r =>
    cases ht : w.sender q n with
    | none =>
      simp only [ht]
      exact .rests
    | some t =>
      simp only [ht]
      refine hmove fun hq => ?_
      subst hq
      exact .sends ht
  | renewer q n r =>
    cases ht : (w.workers q).renewers.lookup n with
    | none =>
      simp only [ht]
      exact .rests
    | some t =>
      simp only [ht]
      refine hmove fun hq => ?_
      subst hq
      exact .renews ht
  | kill q => exact hmove fun hq => hq ▸ .dies

/-- A worker stands still, or its main thread moves, or it starts or dies. -/
theorem moved_main (answer : Service.Output) (pid : ℕ) :
    (moved p w answer m pid).main = (w.workers pid).main ∧
        (moved p w answer m pid).owner = (w.workers pid).owner ∨
      (∃ r, m = .main pid r ∧
        moved p w answer m pid = (w.workers pid).resumeMain w.store r answer) ∨
      record (moved p w answer m pid).main = none := by
  have hturn : Turn p w answer pid m (moved p w answer m pid) := moved_turn answer pid
  generalize moved p w answer m pid = v at hturn ⊢
  cases hturn with
  | rests => exact Or.inl ⟨rfl, rfl⟩
  | begins =>
    unfold Worker.begin
    split
    · exact Or.inr (Or.inr rfl)
    · exact Or.inl ⟨rfl, rfl⟩
  | resumes => exact Or.inr (Or.inl ⟨_, rfl, rfl⟩)
  | sends ht => exact Or.inl ⟨rfl, rfl⟩
  | renews ht => exact Or.inl ⟨rfl, rfl⟩
  | dies => exact Or.inr (Or.inr rfl)

/-- A thread after a move was there before it, has made the move itself, or is new. -/
theorem thread_after {pid attempt : ℕ} {t : Sender}
    (h : (step p w m).1.sender pid attempt = some t) :
    w.sender pid attempt = some t ∨
      (∃ r u ok, m = .sender pid attempt r ∧ w.sender pid attempt = some u ∧
        t = { u with toProgress := u.resume p r ok }) ∨
      (∃ r d message, m = .main pid r ∧ (w.workers pid).main = .spawn d attempt message ∧
        ((step p w m).1.workers pid).main = .handoff d attempt ∧ t.sendId = d.sendId ∧
        t.stage = .start ∧ Untried t.toProgress) := by
  have hturn : Turn p w (stored p w m).2 pid m ((step p w m).1.workers pid) := moved_turn _ pid
  unfold World.sender at h
  generalize (step p w m).1.workers pid = v at h hturn ⊢
  generalize (stored p w m).2 = answer at hturn
  cases hturn with
  | rests => exact Or.inl h
  | begins =>
    unfold Worker.begin at h
    split at h
    · cases h
    · exact Or.inl h
  | resumes =>
    rcases resumeMain_senders h with hold | ⟨d, message, hspawn, hhandoff, hnew⟩
    · exact Or.inl hold
    · exact Or.inr (Or.inr ⟨_, d, message, rfl, hspawn, hhandoff, hnew⟩)
  | @sends n r u hu =>
    unfold Worker.placeSender at h
    dsimp only at h
    by_cases hn : attempt = n
    · subst hn
      rw [Table.lookup_updateAt_self] at h
      change (w.sender pid attempt).map _ = some t at h
      rw [hu] at h
      exact Or.inr (Or.inl ⟨r, u, _, rfl, hu, (Option.some.inj h).symm⟩)
    · rw [Table.lookup_updateAt_ne _ _ _ _ _ _ hn] at h
      exact Or.inl h
  | renews ht => exact Or.inl h
  | dies => cases h

/-- The thread of an attempt after its own move. -/
theorem sender_moved {pid attempt : ℕ} {t : Sender} {r : Reading}
    (h : w.sender pid attempt = some t) :
    (step p w (.sender pid attempt r)).1.sender pid attempt =
      some { t with
        toProgress := t.resume p r (succeeded (stored p w (.sender pid attempt r)).2) } := by
  change (moved p w (stored p w (.sender pid attempt r)).2 (.sender pid attempt r)
    pid).senders.lookup attempt = _
  simp only [moved, h, Function.update_self]
  unfold Worker.placeSender
  rw [Table.lookup_updateAt_self]
  change (w.sender pid attempt).map _ = _
  rw [h]
  rfl

/-- A thread stays, or makes the move, or goes with its worker. -/
theorem thread_kept {pid attempt : ℕ} {t : Sender} (h : w.sender pid attempt = some t) :
    (step p w m).1.sender pid attempt = some t ∨
      (∃ r ok, m = .sender pid attempt r ∧ (step p w m).1.sender pid attempt =
        some { t with toProgress := t.resume p r ok }) ∨
      record ((step p w m).1.workers pid).main = none := by
  have hturn : Turn p w (stored p w m).2 pid m ((step p w m).1.workers pid) := moved_turn _ pid
  unfold World.sender at h ⊢
  generalize (step p w m).1.workers pid = v at hturn ⊢
  generalize (stored p w m).2 = answer at hturn
  cases hturn with
  | rests => exact Or.inl h
  | begins =>
    unfold Worker.begin
    split
    · exact Or.inr (Or.inr rfl)
    · exact Or.inl h
  | resumes => exact Or.inl (resumeMain_sender h)
  | @sends n r u hu =>
    unfold Worker.placeSender
    dsimp only
    by_cases hn : attempt = n
    · subst hn
      obtain rfl := Option.some.inj (hu.symm.trans h)
      rw [Table.lookup_updateAt_self, h]
      exact Or.inr (Or.inl ⟨r, _, rfl, rfl⟩)
    · rw [Table.lookup_updateAt_ne _ _ _ _ _ _ hn]
      exact Or.inl h
  | renews ht => exact Or.inl h
  | dies => exact Or.inr (Or.inr rfl)

/-- A delivery comes in hand by a claim, and keeps its owner. -/
theorem handles_after {pid : ℕ} (h : Handles ((step p w m).1.workers pid) k) :
    (Handles (w.workers pid) k ∧
        ((step p w m).1.workers pid).owner = (w.workers pid).owner) ∨
      ∃ r d, m = .main pid r ∧ (w.workers pid).main = .claim ∧
        (stored p w m).2 = .delivery (some d) ∧ d.sendId = k ∧
        ((step p w m).1.workers pid).owner = (w.workers pid).owner := by
  obtain ⟨d, hd, hk⟩ := h
  rcases moved_main (p := p) (w := w) (m := m) (stored p w m).2 pid with
    ⟨hmain, howner⟩ | ⟨r, hm, hmoved⟩ | hnone
  · refine Or.inl ⟨⟨d, ?_, hk⟩, howner⟩
    rw [← hmain]
    exact hd
  · change record (moved p w (stored p w m).2 m pid).main = some d at hd
    have howner : ((step p w m).1.workers pid).owner = (w.workers pid).owner := by
      change (moved p w (stored p w m).2 m pid).owner = _
      rw [hmoved, resumeMain_owner]
    rw [hmoved] at hd
    rcases resumeMain_record hd with hold | ⟨hclaim, hanswer⟩
    · exact Or.inl ⟨⟨d, hold, hk⟩, howner⟩
    · exact Or.inr ⟨r, d, hm, hclaim, hanswer, hk, howner⟩
  · change record (moved p w (stored p w m).2 m pid).main = some d at hd
    rw [hnone] at hd
    cases hd

/-- Nobody claims a held row. -/
theorem handles_before {pid : ℕ} {owner : String} (hheld : HeldIn k owner w.store)
    (h : Handles ((step p w m).1.workers pid) k) : Handles (w.workers pid) k := by
  rcases handles_after h with ⟨hold, _⟩ | ⟨r, d, hm, hclaim, hanswer, rfl, _⟩
  · exact hold
  · exact absurd hheld ((stored_claims hm hclaim hanswer).2 owner)

theorem sealed_after (h : Sealed k w) : Sealed k (step p w m).1 := by
  obtain ⟨hfree, owner, hheld⟩ := h
  refine ⟨fun pid hpid => hfree pid (handles_before hheld hpid), owner, stored_held hheld ?_⟩
  intro pid r d attempt o _ hmain hk
  exact absurd ⟨d, by rw [hmain]; rfl, hk⟩ (hfree pid)

/-- The row of a delivery that an attempt waits for stays with its owner. -/
theorem awaits_held (hw : Fair k w) {pid attempt : ℕ}
    (h : Awaits (w.workers pid).main attempt k) :
    HeldIn k (w.workers pid).owner (step p w m).1.store := by
  refine stored_held (hw.held pid (awaits_handles h)) ?_
  intro q r d n o _ hmain hk
  have hq := hw.one q pid ⟨d, by rw [hmain]; rfl, hk⟩ (awaits_handles h)
  subst hq
  rw [hmain] at h
  exact h.2

/-- A worker that lets go of such a delivery leaves it held for good. -/
theorem awaits_sealed (hw : Fair k w) {pid attempt : ℕ}
    (h : Awaits (w.workers pid).main attempt k)
    (hnone : record ((step p w m).1.workers pid).main = none) : Sealed k (step p w m).1 := by
  refine ⟨?_, _, awaits_held hw h⟩
  intro q hq
  have hpid := hw.one q pid (handles_before (hw.held pid (awaits_handles h)) hq) (awaits_handles h)
  subst hpid
  obtain ⟨d, hd, _⟩ := hq
  rw [hnone] at hd
  cases hd

/-- Once the thread is firm, the main thread keeps waiting or seals the delivery. -/
theorem awaits_after (hw : Fair k w) {pid attempt : ℕ} {t : Sender}
    (h : Awaits (w.workers pid).main attempt k) (ht : w.sender pid attempt = some t)
    (hfirm : Firm t) :
    Awaits ((step p w m).1.workers pid).main attempt k ∨ Sealed k (step p w m).1 := by
  rcases moved_main (p := p) (w := w) (m := m) (stored p w m).2 pid with
    ⟨hmain, _⟩ | ⟨r, hm, hmoved⟩ | hnone
  · left
    change Awaits (moved p w (stored p w m).2 m pid).main attempt k
    rw [hmain]
    exact h
  · rcases (resumeMain_awaits h ht hfirm : Awaits ((w.workers pid).resumeMain w.store r
        (stored p w m).2).main attempt k ∨ _) with
      hawaits | ⟨hnone, _⟩
    · left
      change Awaits (moved p w (stored p w m).2 m pid).main attempt k
      rw [hmoved]
      exact hawaits
    · refine Or.inr (awaits_sealed hw h ?_)
      change record (moved p w (stored p w m).2 m pid).main = none
      rw [hmoved]
      exact hnone
  · exact Or.inr (awaits_sealed hw h hnone)

/-- An attempt is armed by the start of its thread only. -/
theorem armed_after {pid attempt : ℕ} (h : Armed (step p w m).1 pid attempt k) :
    Armed w pid attempt k ∨
      ∃ r d message, m = .main pid r ∧ (w.workers pid).main = .spawn d attempt message ∧
        ((step p w m).1.workers pid).main = .handoff d attempt ∧ d.sendId = k := by
  obtain ⟨t, ht, hk, hearly⟩ := h
  rcases thread_after ht with hold | ⟨r, u, ok, hm, hu, rfl⟩ |
    ⟨r, d, message, hm, hspawn, hhandoff, hsame, _⟩
  · exact Or.inl ⟨t, hold, hk, hearly⟩
  · exact Or.inl ⟨u, hu, hk, (resume_early hearly).1⟩
  · exact Or.inr ⟨r, d, message, hm, hspawn, hhandoff, hsame ▸ hk⟩

/-- While a worker starts an attempt, no other thread may click. -/
theorem spawn_unarmed (hw : Fair k w) {pid q attempt n : ℕ} {d : Delivery} {message : Text}
    (hspawn : (w.workers pid).main = .spawn d n message) (hk : d.sendId = k) :
    ¬Armed w q attempt k := by
  intro harmed
  have hhandles : Handles (w.workers pid) k := ⟨d, by rw [hspawn]; rfl, hk⟩
  rcases hw.armed q attempt harmed with hawaits | ⟨hfree, _⟩
  · have hq := hw.one q pid (awaits_handles hawaits) hhandles
    subst hq
    rw [hspawn] at hawaits
    exact hawaits
  · exact hfree pid hhandles

theorem step_fair (hw : Fair k w) (m : Move) : Fair k (step p w m).1 where
  one := by
    intro pid pid' h h'
    rcases handles_after h with ⟨hold, _⟩ | ⟨r, d, hm, hclaim, hanswer, hd, _⟩
    · exact hw.one pid pid' hold (handles_before (hw.held pid hold) h')
    · rcases handles_after h' with ⟨hold', _⟩ | ⟨r', d', hm', _⟩
      · subst hd
        exact absurd (hw.held pid' hold') ((stored_claims hm hclaim hanswer).2 _)
      · rw [hm] at hm'
        exact (Move.main.inj hm').1
  held := by
    intro pid h
    rcases handles_after h with ⟨hold, howner⟩ | ⟨r, d, hm, hclaim, hanswer, rfl, howner⟩
    · rw [howner]
      refine stored_held (hw.held pid hold) ?_
      intro q r d n o hm hmain hk
      have hq := hw.one q pid ⟨d, by rw [hmain]; rfl, hk⟩ hold
      subst hq hm
      obtain ⟨d', hd', _⟩ := h
      change record (moved p w _ (.main q r) q).main = some d' at hd'
      simp only [moved, Function.update_self] at hd'
      unfold Worker.resumeMain at hd'
      rw [hmain] at hd'
      cases hd'
    · rw [howner]
      exact (stored_claims hm hclaim hanswer).1
  untried := by
    intro pid attempt t ht hearly
    rcases thread_after ht with hold | ⟨r, u, ok, _, hu, rfl⟩ | ⟨r, d, message, _, _, _, _, _, hnew⟩
    · exact hw.untried pid attempt t hold hearly
    · obtain ⟨hbefore, huntried⟩ := resume_early hearly
      exact huntried (hw.untried pid attempt u hu hbefore)
    · exact hnew
  armed := by
    intro pid attempt h
    rcases armed_after h with hold | ⟨r, d, message, _, _, hhandoff, hk⟩
    · rcases hw.armed pid attempt hold with hawaits | hsealed
      · obtain ⟨t, ht, _, hearly⟩ := hold
        exact awaits_after hw hawaits ht (early_firm hearly (hw.untried pid attempt t ht hearly))
      · exact Or.inr (sealed_after hsealed)
    · left
      rw [hhandoff]
      exact ⟨hk, rfl⟩
  single := by
    intro pid attempt pid' attempt' h h'
    rcases armed_after h with hold | ⟨r, d, message, hm, hspawn, _, hk⟩
    · rcases armed_after h' with hold' | ⟨r', d', message', _, hspawn', _, hk'⟩
      · exact hw.single pid attempt pid' attempt' hold hold'
      · exact absurd hold (spawn_unarmed hw hspawn' hk')
    · rcases armed_after h' with hold' | ⟨r', d', message', hm', hspawn', _, _⟩
      · exact absurd hold' (spawn_unarmed hw hspawn hk)
      · rw [hm] at hm'
        obtain ⟨rfl, rfl⟩ := Move.main.inj hm'
        rw [hspawn] at hspawn'
        exact ⟨rfl, (Main.spawn.inj hspawn').2.1⟩

/-- The delivery was clicked by the attempt, and is kept from any other. -/
structure Spent (k : String) (pid attempt : ℕ) (w : World) : Prop where
  unarmed : ∀ q n, ¬Armed w q n k
  kept : (Awaits (w.workers pid).main attempt k ∧ ∃ t, w.sender pid attempt = some t ∧
    t.sendId = k ∧ Committed t.quiet t.toProgress) ∨ Sealed k w

/-- It stays so until the attempt reads a refusal. -/
theorem step_spent (hw : Fair k w) {pid attempt : ℕ} (h : Spent k pid attempt w) (m : Move) :
    Spent k pid attempt (step p w m).1 ∨
      ∃ r t, m = .sender pid attempt r ∧ w.sender pid attempt = some t ∧ t.sendId = k ∧
        Rejected p t r := by
  have hunarmed : ∀ q n, ¬Armed (step p w m).1 q n k := by
    intro q n harmed
    rcases armed_after harmed with hold | ⟨r, d, message, _, hspawn, _, hk⟩
    · exact h.unarmed q n hold
    · have hhandles : Handles (w.workers q) k := ⟨d, by rw [hspawn]; rfl, hk⟩
      rcases h.kept with ⟨hawaits, _⟩ | ⟨hfree, _⟩
      · have hq := hw.one q pid hhandles (awaits_handles hawaits)
        subst hq
        rw [hspawn] at hawaits
        exact hawaits
      · exact hfree q hhandles
  rcases h.kept with ⟨hawaits, t, ht, hk, hcommitted⟩ | hsealed
  · have hfirm : Firm t := committed_firm hcommitted
    rcases awaits_after (p := p) (m := m) hw hawaits ht hfirm with hawaits' | hsealed
    · rcases thread_kept (p := p) (m := m) ht with hsame | ⟨r, ok, hm, hnext⟩ | hnone
      · exact Or.inl ⟨hunarmed, Or.inl ⟨hawaits', t, hsame, hk, hcommitted⟩⟩
      · rcases (resume_committed hcommitted :
            Committed t.quiet (t.resume p r ok) ∨ Rejected p t r) with hcommitted' | hrejected
        · exact Or.inl ⟨hunarmed, Or.inl ⟨hawaits', _, hnext, hk, hcommitted'⟩⟩
        · exact Or.inr ⟨r, t, hm, ht, hk, hrejected⟩
      · exact Or.inl ⟨hunarmed, Or.inr (awaits_sealed hw hawaits hnone)⟩
    · exact Or.inl ⟨hunarmed, Or.inr hsealed⟩
  · exact Or.inl ⟨hunarmed, Or.inr (sealed_after hsealed)⟩

end Steps

def atRest (s : Store) : World := { store := s }

theorem atRest_fair (s : Store) (k : String) : Fair k (atRest s) where
  one := by
    rintro pid pid' ⟨d, hd, _⟩
    cases hd
  held := by
    rintro pid ⟨d, hd, _⟩
    cases hd
  untried := by
    intro pid attempt t ht
    cases ht
  armed := by
    rintro pid attempt ⟨t, ht, _⟩
    cases ht
  single := by
    rintro pid attempt pid' attempt' ⟨t, ht, _⟩
    cases ht

/-- A click shows the thread's own message in the composer. -/
theorem clicking_thread {p : Setup} {w : World} {m : Move} {t : Sender}
    (h : clicking p w m = some t) :
    ∃ pid attempt r, m = .sender pid attempt r ∧ w.sender pid attempt = some t ∧
      t.stage = .click ∧ showsMessage p.toLibraries t.message r.click = true := by
  unfold clicking at h
  split at h
  · rename_i pid attempt r
    obtain ⟨hlookup, hclick⟩ := Option.filter_eq_some_iff.mp h
    rw [Bool.and_eq_true] at hclick
    refine ⟨pid, attempt, r, rfl, hlookup, ?_, ?_⟩
    · cases hstage : t.stage <;> simp [hstage, Stage.isClick] at hclick ⊢
    · have hclicked := hclick.2
      simp only [clickSend, Bool.and_eq_true] at hclicked
      exact hclicked.2
  · cases h

/-- A click spends the delivery. -/
theorem click_spends {p : Setup} {w : World} {k : String} (hw : Fair k w) {pid attempt : ℕ}
    {r : Reading} {t : Sender} (ht : w.sender pid attempt = some t) (hk : t.sendId = k)
    (hclick : t.stage = .click) :
    Spent k pid attempt (step p w (.sender pid attempt r)).1 := by
  have hearly : isEarly t.stage = true := by
    rw [hclick]
    rfl
  have harmed : Armed w pid attempt k := ⟨t, ht, hk, hearly⟩
  have huntried := hw.untried pid attempt t ht hearly
  have hfirm : Firm t := early_firm hearly huntried
  have hnext := sender_moved (p := p) (r := r) ht
  have hcommitted : Committed t.quiet
      (t.resume p r (succeeded (stored p w (.sender pid attempt r)).2)) :=
    click_committed hclick huntried
  refine ⟨?_, ?_⟩
  · intro q n harmed'
    rcases armed_after harmed' with hold | ⟨_, _, _, hm, _⟩
    · obtain ⟨rfl, rfl⟩ := hw.single pid attempt q n harmed hold
      obtain ⟨u, hu, _, hearly'⟩ := harmed'
      rw [hnext] at hu
      obtain rfl := Option.some.inj hu
      rw [hcommitted.late] at hearly'
      cases hearly'
    · cases hm
  · rcases hw.armed pid attempt harmed with hawaits | hsealed
    · rcases awaits_after (p := p) (m := .sender pid attempt r) hw hawaits ht hfirm with
        hawaits' | hsealed
      · exact Or.inl ⟨hawaits', _, hnext, hk, hcommitted⟩
      · exact Or.inr hsealed
    · exact Or.inr (sealed_after hsealed)

/-- Over every run: between two clicks for one delivery, the thread of the first one read, in its
own tab, that the prompt was refused or was still in the composer. And every click finds the
delivery held and its message in the composer. -/
theorem resent_after_refusal (p : Setup) (s : Store) (run : List Move) :
    (∀ before between after e e',
      events (step p) (atRest s) run = before ++ e :: (between ++ e' :: after) →
      ∀ t t', e.output = some t → e'.output = some t' → t'.sendId = t.sendId →
        ∃ b ∈ between, ∃ pid attempt r r' u, e.input = .sender pid attempt r ∧
          b.input = .sender pid attempt r' ∧ b.pre.sender pid attempt = some u ∧
            u.sendId = t.sendId ∧ Rejected p u r') ∧
      ∀ e ∈ events (step p) (atRest s) run, ∀ t, e.output = some t →
        (∃ owner, HeldIn t.sendId owner e.pre.store) ∧ ∃ pid attempt r,
          e.input = .sender pid attempt r ∧
            showsMessage p.toLibraries t.message r.click = true := by
  have hfair : ∀ k, ∀ e ∈ events (step p) (atRest s) run, Fair k e.pre := by
    intro k
    refine event_invariant (step p) (fun _ _ => True) (Fair k) ?_ (atRest s) (atRest_fair s k) run
      ((meets_iff_events _ _ _ _).mpr fun _ _ => trivial)
    intro w m _ hw
    exact step_fair hw m
  have hclicks : ∀ e ∈ events (step p) (atRest s) run, ∀ t, e.output = some t →
      clicking p e.pre e.input = some t := by
    intro e he t ht
    rw [← ht]
    exact congrArg Prod.snd (event_step (step p) (atRest s) run e he)
  constructor
  · intro before between after e e' hrun t t' ht ht' hsame
    have he : e ∈ events (step p) (atRest s) run := by
      rw [hrun]
      simp
    have he' : e' ∈ events (step p) (atRest s) run := by
      rw [hrun]
      simp
    obtain ⟨pid, attempt, r, hinput, hlookup, hclick, _⟩ := clicking_thread (hclicks e he t ht)
    by_contra hnone
    have hpost : e.post = (step p e.pre e.input).1 :=
      (congrArg Prod.fst (event_step (step p) (atRest s) run e he)).symm
    have hkept : Fair t.sendId e'.pre ∧ Spent t.sendId pid attempt e'.pre := by
      refine carried_between (step p)
        (fun w => Fair t.sendId w ∧ Spent t.sendId pid attempt w) (atRest s) run before between
        after e e' hrun ⟨?_, ?_⟩ ?_
      · rw [hpost]
        exact step_fair (hfair _ e he) _
      · rw [hpost, hinput]
        exact click_spends (hfair _ e he) hlookup rfl hclick
      · rintro b hb ⟨hw, hspent⟩
        have hbevent : b ∈ events (step p) (atRest s) run := by
          rw [hrun]
          simp [hb]
        have hbpost : b.post = (step p b.pre b.input).1 :=
          (congrArg Prod.fst (event_step (step p) (atRest s) run b hbevent)).symm
        rw [hbpost]
        refine ⟨step_fair hw _, ?_⟩
        rcases step_spent (p := p) hw hspent b.input with hspent' | ⟨r', u, hm, hu, hk, hrejected⟩
        · exact hspent'
        · exact absurd ⟨b, hb, pid, attempt, r, r', u, hinput, hm, hu, hk, hrejected⟩ hnone
    obtain ⟨pid', attempt', r', _, hlookup', hclick', _⟩ := clicking_thread (hclicks e' he' t' ht')
    exact hkept.2.unarmed pid' attempt' ⟨t', hlookup', hsame, by rw [hclick']; rfl⟩
  · intro e he t ht
    obtain ⟨pid, attempt, r, hinput, hlookup, hclick, hshows⟩ :=
      clicking_thread (hclicks e he t ht)
    refine ⟨?_, pid, attempt, r, hinput, hshows⟩
    have hw := hfair t.sendId e he
    have harmed : Armed e.pre pid attempt t.sendId := ⟨t, hlookup, rfl, by rw [hclick]; rfl⟩
    rcases hw.armed pid attempt harmed with hawaits | ⟨_, hheld⟩
    · exact ⟨_, hw.held pid (awaits_handles hawaits)⟩
    · exact hheld

def plainSetup : Setup where
  lib := Service.plainLib
  letters := ComposerMentions.asciiLetters
  mentions := [ComposerMentions.glass]
  classes := RetryDelays.asciiClasses
  repr := id

def queuedStore : Store :=
  { Store.empty with
    queue := Table.empty.insertNew
      { sequence := 1, sendId := "manual-1", message := "hello".toList, clientId := "manual:1",
        createdAt := 1, updatedAt := 1 } }

def inOrder (now : Time) : Reading where
  now := now
  click := { composer := "hello".toList }

def typed (now : Time) : Reading := { inOrder now with page := { composer := "hello".toList } }

def refused (now : Time) : Reading :=
  { inOrder now with confirmation := { capture := { status := 400 } } }

def claimMoves (now : Time) : List Move := List.replicate 6 (.main 7 (inOrder now))

def typingMoves (attempt : ℕ) (now : Time) : List Move :=
  List.replicate 10 (.sender 7 attempt (inOrder now)) ++
    List.replicate 2 (.sender 7 attempt (typed now))

def upToClick : List Move := .start 7 "host:7:a" false :: claimMoves 10 ++ typingMoves 0 10

/-- The server refuses the prompt, and the worker claims it again after its delay. -/
def betweenClicks : List Move :=
  .sender 7 0 (refused 11) :: List.replicate 2 (.main 7 (inOrder 12)) ++ claimMoves 20 ++
    typingMoves 1 20

def clickEvent (w : World) (attempt : ℕ) (now : Time) : Event World Move (Option Sender) :=
  ⟨w, .sender 7 attempt (inOrder now),
    (step plainSetup w (.sender 7 attempt (inOrder now))).2,
    (step plainSetup w (.sender 7 attempt (inOrder now))).1⟩

def firstClick : Event World Move (Option Sender) :=
  clickEvent (final (step plainSetup) (atRest queuedStore) upToClick) 0 10

def secondClick : Event World Move (Option Sender) :=
  clickEvent (final (step plainSetup) firstClick.post betweenClicks) 1 20

def twoClicks : List Move :=
  upToClick ++ firstClick.input :: (betweenClicks ++ [secondClick.input])

/-- The run up to the first click, the steps between, and the second click. -/
theorem twoClicks_events :
    events (step plainSetup) (atRest queuedStore) twoClicks =
      events (step plainSetup) (atRest queuedStore) upToClick ++
        firstClick :: (events (step plainSetup) firstClick.post betweenClicks ++
          secondClick :: []) := by
  rw [twoClicks, events_append]
  refine congrArg _ (congrArg (List.cons firstClick) ?_)
  exact events_append (step plainSetup) firstClick.post betweenClicks [secondClick.input]

theorem firstClick_clicks : firstClick.output.map Sender.sendId = some "manual-1" := by
  decide +kernel

theorem secondClick_clicks : secondClick.output.map Sender.sendId = some "manual-1" := by
  decide +kernel

theorem resent_after_refusal_twoClicks :
    ∃ t, firstClick.output = some t ∧
      ∃ b ∈ events (step plainSetup) firstClick.post betweenClicks, ∃ pid attempt r r' u,
        firstClick.input = .sender pid attempt r ∧ b.input = .sender pid attempt r' ∧
          b.pre.sender pid attempt = some u ∧ u.sendId = t.sendId ∧
            Rejected plainSetup u r' := by
  obtain ⟨t, ht, hk⟩ := Option.map_eq_some_iff.mp firstClick_clicks
  obtain ⟨t', ht', hk'⟩ := Option.map_eq_some_iff.mp secondClick_clicks
  exact ⟨t, ht, (resent_after_refusal plainSetup queuedStore twoClicks).1 _ _ _ _ _
    twoClicks_events t t' ht ht' (by rw [hk, hk'])⟩

end Prompta.FreshResends
