import Prompta.ReplyChanges

/-!
A stop ends what a chat still has under way. A row that is stopped, or that was settled
before, is opened by no later capture, dispatch or recovery; only the user's own resend
takes up a reply that failed before its dispatch. The stop leaves one status out: an
original response whose outcome is unknown stays so, and a late acceptance opens it.
-/
namespace Prompta.StoppedChats

open Runs Relation Tables Texts DisplayBlocks Schema ResponseStore ReplyStore Service

def isActiveResult : ResultStatus → Bool
  | .queued => true
  | .accepted => true
  | .generating => true
  | _ => false

def isActiveTurn : ReplyStatus → Bool
  | .queued => true
  | .dispatching => true
  | .accepted => true
  | .generating => true
  | _ => false

/-- In the later state nothing is under way that stood in the chat before. -/
structure AtRest (sendId : String) (before later : Store) : Prop where
  original : ∀ r, before.chats.results.lookup sendId = some r →
    ∀ r', later.chats.results.lookup sendId = some r' → isActiveResult r'.status = false
  replies : ∀ r ∈ before.chats.replies.rows, r.sendId = sendId →
    ∀ r', later.chats.replies.lookup r.replyId = some r' → isActiveTurn r'.status = false

/-- The statuses that a response keeps after a stop. -/
def isOver : ResultStatus → Bool
  | .submitted => true
  | .completed => true
  | .stopped => true
  | _ => false

/-- The statuses that a reply keeps after a stop. -/
def isWithdrawn : ReplyStatus → Bool
  | .preflightFailed => true
  | .completed => true
  | .stopped => true
  | .cancelled => true
  | .merged => true
  | _ => false

/-- A response that is over takes no capture, no acceptance and no reading. -/
theorem over_not_active {status : ResultStatus} (h : isOver status = true) :
    isActiveResult status = false ∧ awaitsAcceptance status = false ∧ isCapturing status = false ∧
      isRecoverable status = false ∧ status ≠ .outcomeUnknown := by
  cases status <;> simp_all [isOver, isActiveResult, awaitsAcceptance, isCapturing, isRecoverable]

/-- A withdrawn reply takes no dispatch and no reading. -/
theorem withdrawn_not_active {status : ReplyStatus} (h : isWithdrawn status = true) :
    isActiveTurn status = false ∧ activeReply status = false ∧ awaitsHistory status = false ∧
      status ≠ .queued ∧ status ≠ .prepared ∧ status ≠ .outcomeUnknown := by
  cases status <;> simp_all [isWithdrawn, isActiveTurn, activeReply, awaitsHistory]

theorem change_over {lib : Stdlib} {call : Call} {a b : ResultRow}
    (h : ResultChange lib call a b) (ha : isOver a.status = true) : isOver b.status = true := by
  obtain ⟨hactive, hawaits, hcapturing, hrecoverable, hknown⟩ := over_not_active ha
  have hqueued : a.status ≠ .queued := by
    intro hqueued
    rw [hqueued] at hactive
    exact Bool.noConfusion hactive
  have hlive : ∀ {owner}, liveCapture owner call.now a = true → False := by
    intro owner hlive
    simp only [liveCapture, Bool.and_eq_true] at hlive
    rw [hcapturing] at hlive
    exact Bool.noConfusion hlive.1.2
  cases h with
  | named => exact ha
  | combined _ h => exact absurd h hqueued
  | submitted h => exact absurd h hqueued
  | accepted _ _ _ _ h =>
    rw [hawaits] at h
    exact Bool.noConfusion h
  | observed _ _ _ _ _ _ h =>
    simp only [unidentifiedResult, Bool.and_eq_true] at h
    rw [hawaits] at h
    exact Bool.noConfusion h.1.1.1
  | generating _ h => exact (hlive h).elim
  | routed _ _ h => exact (hlive h).elim
  | tools _ _ _ _ h => exact (hlive h).elim
  | text _ _ _ _ h => exact (hlive h).elim
  | extended _ _ h => exact (hlive h).elim
  | ended _ h =>
    rw [hcapturing] at h
    exact Bool.noConfusion h
  | unavailable h => exact absurd h hqueued
  | unknown h =>
    simp only [unproven, Bool.and_eq_true, Bool.or_eq_true, decide_eq_true_eq] at h
    rcases h.1.1 with h | h
    · exact absurd h hqueued
    · rw [h] at hawaits
      exact Bool.noConfusion hawaits
  | detached h =>
    simp only [ownedCapture, Bool.and_eq_true] at h
    rw [hcapturing] at h
    exact Bool.noConfusion h.1.1
  | live => exact ha
  | recovered _ _ _ h =>
    simp only [recoverableRow, Bool.and_eq_true] at h
    rw [hrecoverable] at h
    exact Bool.noConfusion h.1.1
  | identified =>
    unfold identifiedRow
    dsimp only
    rw [if_neg hknown]
    exact ha
  | stopped => rfl

theorem change_withdrawn {lib : Stdlib} {s : Store} {call : Call} (hcall : rearms call = false)
    {a b : ReplyRow} (h : ReplyChange lib s call a b) (ha : isWithdrawn a.status = true) :
    isWithdrawn b.status = true := by
  obtain ⟨_, hactive, hawaits, hqueued, hprepared, hknown⟩ := withdrawn_not_active ha
  have hlive : ∀ {owner}, liveDispatch owner call.now a = true → False := by
    intro owner hlive
    simp only [liveDispatch, Bool.and_eq_true] at hlive
    rw [hactive] at hlive
    exact Bool.noConfusion hlive.1.1
  cases h with
  | failed => rfl
  | rearmed _ h =>
    rw [hcall] at h
    exact Bool.noConfusion h
  | authorized => exact ha
  | bound _ _ _ h => exact absurd h hqueued
  | identified messageId =>
    unfold identifiedReply
    dsimp only
    rw [if_neg hknown]
    exact ha
  | claimed _ _ _ _ _ h => exact absurd h hprepared
  | submitted _ _ h => exact (hlive h).elim
  | accepted _ _ _ _ h => exact (hlive h).elim
  | observed _ _ _ h => exact (hlive h).elim
  | progress _ _ _ h => exact (hlive h).elim
  | renewed _ _ _ h => exact (hlive h).elim
  | ended _ _ _ h =>
    rw [hactive] at h
    exact Bool.noConfusion h
  | orphaned h =>
    rw [hactive] at h
    exact Bool.noConfusion h
  | detached _ _ _ h =>
    have hanswering : answeringReply a.status = false := by
      cases hstatus : a.status <;> simp_all [isWithdrawn, answeringReply]
    simp only [ownedReply, Bool.and_eq_true] at h
    rw [hanswering] at h
    exact Bool.noConfusion h.1.1
  | loaded => exact ha
  | recovered _ _ h =>
    simp only [detachedReply, Bool.and_eq_true] at h
    rw [hawaits] at h
    exact Bool.noConfusion h.1
  | cancelled => rfl
  | stopped => rfl

/-- What is over stays over, whoever makes the call. -/
theorem step_over (lib : Stdlib) (s : Store) (call : Call) {sendId : String} {r : ResultRow}
    (hr : s.chats.results.lookup sendId = some r) (hover : isOver r.status = true) :
    ∃ r', (step lib s call).1.chats.results.lookup sendId = some r' ∧ isOver r'.status = true := by
  obtain ⟨r', hr', hpath⟩ := (step_results lib s call).lookup_some (fun _ _ h => h.sendId_eq) hr
  refine ⟨r', hr', ?_⟩
  exact reflTransGen_keeps (P := fun r => isOver r.status = true)
    (fun _ _ h => change_over h) hpath hover

/-- A withdrawn reply is taken up by the user's own resend only. -/
theorem step_withdrawn (lib : Stdlib) (s : Store) (call : Call) (hcall : rearms call = false)
    {replyId : String} {r : ReplyRow} (hr : s.chats.replies.lookup replyId = some r)
    (hwithdrawn : isWithdrawn r.status = true) :
    ∃ r', (step lib s call).1.chats.replies.lookup replyId = some r' ∧
      isWithdrawn r'.status = true := by
  obtain ⟨r', hr', hpath⟩ := (step_replies lib s call).lookup_some (fun _ _ h => h.replyId_eq) hr
  refine ⟨r', hr', ?_⟩
  exact reflTransGen_keeps (P := fun r => isWithdrawn r.status = true)
    (fun _ _ h => change_withdrawn hcall h) hpath hwithdrawn

section Run

variable (lib : Stdlib) (s : Store) (later : List Call)

theorem run_over {sendId : String} (h : ∃ r, s.chats.results.lookup sendId = some r ∧
    isOver r.status = true) :
    ∃ r, (final (step lib) s later).chats.results.lookup sendId = some r ∧
      isOver r.status = true := by
  refine final_invariant (step lib) (fun _ => True)
    (fun s => ∃ r, s.chats.results.lookup sendId = some r ∧ isOver r.status = true) ?_ s h later
      fun _ _ => trivial
  rintro s call _ ⟨r, hr, hover⟩
  exact step_over lib s call hr hover

/-- By induction on the run: only a rearming brings a withdrawn reply back. -/
theorem run_withdrawn {replyId : String} (h : ∃ r, s.chats.replies.lookup replyId = some r ∧
    isWithdrawn r.status = true) (hlater : ∀ call ∈ later, rearms call = false) :
    ∃ r, (final (step lib) s later).chats.replies.lookup replyId = some r ∧
      isWithdrawn r.status = true := by
  refine final_invariant (step lib) (fun call => rearms call = false)
    (fun s => ∃ r, s.chats.replies.lookup replyId = some r ∧ isWithdrawn r.status = true) ?_ s h
      later hlater
  rintro s call hcall ⟨r, hr, hwithdrawn⟩
  exact step_withdrawn lib s call hcall hr hwithdrawn

end Run

section Stop

variable {c : Chats} {sendId : String} (now : Time)

/-- The stop ends the original response, unless its outcome is unknown. -/
theorem stopChat_original {r : ResultRow} (hr : c.results.lookup sendId = some r) :
    ∃ r', (stopChat c sendId now).results.lookup sendId = some r' ∧
      (r.status ≠ .outcomeUnknown → isOver r'.status = true) ∧
      (r.status = .outcomeUnknown → r' = r) := by
  refine ⟨if stopsResult r.status then stopResult now r else r, ?_, ?_, ?_⟩
  · unfold stopChat
    dsimp only
    rw [Table.lookup_updateAt_self, hr, Option.map_some]
  · intro hknown
    by_cases hstops : stopsResult r.status = true
    · rw [if_pos hstops]
      rfl
    · rw [if_neg hstops]
      cases hstatus : r.status <;> simp_all [stopsResult, isOver]
  · intro hunknown
    rw [hunknown]
    rfl

/-- The stop ends every reply of the chat that is under way. -/
theorem stopChat_reply {r : ReplyRow} (hr : r ∈ c.replies.rows) (hchat : r.sendId = sendId) :
    ∃ r', (stopChat c sendId now).replies.lookup r.replyId = some r' ∧
      isWithdrawn r'.status = true := by
  have hlookup := Table.lookup_of_mem hr
  unfold stopChat
  dsimp only
  rw [Table.lookup_update, Table.lookup_update, hlookup, Option.map_some, Option.map_some]
  refine ⟨_, rfl, ?_⟩
  cases hstatus : r.status <;>
    simp [hstatus, hchat, isUnsent, stopsReply, cancelReply, stopReply, isWithdrawn]

end Stop

/-- In every reachable state a stop leaves the chat at rest for every later run without
the user's own resend, if and only if the outcome of its original response is not unknown. -/
theorem stopped_chat_at_rest (lib : Stdlib) (run : List Call) (sendId : String) (now : Time) :
    (∀ later : List Call, (∀ call ∈ later, rearms call = false) →
      AtRest sendId (final (step lib) Store.empty run)
        (final (step lib)
          (step lib (final (step lib) Store.empty run) ⟨.stop sendId, now⟩).1 later)) ↔
      ∀ r, (final (step lib) Store.empty run).chats.results.lookup sendId = some r →
        r.status ≠ .outcomeUnknown := by
  generalize final (step lib) Store.empty run = s
  have hstop : (step lib s ⟨.stop sendId, now⟩).1 =
      { s with chats := stopChat s.chats sendId now } := rfl
  rw [hstop]
  constructor
  · intro hrest r hr hunknown
    obtain ⟨r', hr', _, hsame⟩ := stopChat_original now hr
    rw [hsame hunknown] at hr'
    -- the late acceptance of an unknown outcome
    let accepts : Call := ⟨.result (.accept sendId "" (now + 1)), now⟩
    have haccepted : (step lib { s with chats := stopChat s.chats sendId now }
        accepts).1.chats.results.lookup
        sendId = some (acceptedRow "" (now + 1) now r) := by
      change (accept (stopChat s.chats sendId now) sendId "" (now + 1) now).1.results.lookup
          sendId = _
      have hdeadline : ¬ now + 1 ≤ now := by
        rw [not_le]
        exact lt_add_one now
      unfold accept
      rw [if_neg hdeadline]
      dsimp only [updateResult]
      rw [Table.lookup_updateAt_self, hr', Option.map_some, hunknown]
      rfl
    have hactive := (hrest [accepts] (by simp [accepts, rearms])).original r hr _ haccepted
    exact Bool.noConfusion hactive
  · intro hknown later hlater
    constructor
    · intro r hr r' hr'
      obtain ⟨stopped, hstopped, hover, _⟩ := stopChat_original now hr
      obtain ⟨found, hfound, hfinal⟩ := run_over lib { s with chats := stopChat s.chats sendId now }
        later ⟨stopped, hstopped, hover (hknown r hr)⟩
      rw [hfound, Option.some.injEq] at hr'
      rw [← hr']
      exact (over_not_active hfinal).1
    · intro r hr hchat r' hr'
      obtain ⟨found, hfound, hfinal⟩ := run_withdrawn lib
        { s with chats := stopChat s.chats sendId now } later (stopChat_reply now hr hchat) hlater
      rw [hfound, Option.some.injEq] at hr'
      rw [← hr']
      exact (withdrawn_not_active hfinal).1

def unknownRun : List Call :=
  [⟨.queue (.enqueue ⟨"manual-1", ['h', 'i'], "", [], false, false⟩ true), 10⟩,
    ⟨.queue (.claimNext "worker-1" 30 false none fun _ => true), 11⟩,
    ⟨.queue (.expireLeases (fun _ => true) true), 50⟩]

def acceptedLate : List Call := [⟨.result (.accept "manual-1" "worker-1" 200), 61⟩]

theorem unknown_outcome_reopened :
    (∀ call ∈ acceptedLate, rearms call = false) ∧
      ¬ AtRest "manual-1" (final (step plainLib) Store.empty unknownRun)
        (final (step plainLib)
          (step plainLib (final (step plainLib) Store.empty unknownRun) ⟨.stop "manual-1", 60⟩).1
          acceptedLate) := by
  refine ⟨by decide, ?_⟩
  intro hrest
  have hbefore : ∃ r ∈ (final (step plainLib) Store.empty unknownRun).chats.results.lookup
      "manual-1", r.status = .outcomeUnknown := by decide +kernel
  have hlater : ∃ r ∈ (final (step plainLib) (step plainLib (final (step plainLib) Store.empty
      unknownRun) ⟨.stop "manual-1", 60⟩).1 acceptedLate).chats.results.lookup "manual-1",
      isActiveResult r.status = true := by decide +kernel
  obtain ⟨r, hr, _⟩ := hbefore
  obtain ⟨r', hr', hactive⟩ := hlater
  rw [hrest.original r hr r' hr'] at hactive
  exact Bool.noConfusion hactive

end Prompta.StoppedChats
