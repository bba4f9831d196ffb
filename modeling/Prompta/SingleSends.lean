import Prompta.ReplyDispatch
import Prompta.ReplyDispatcher

/-!
No reply is sent twice. A thread clicks only in the move after its own claim, and a claim
finds the reply prepared, which no reply is again after its claim. So whichever processes run,
however their threads interleave and wherever they are killed, at most one of them ever clicks
the send control for a reply, and then the composer shows that reply.
-/
namespace Prompta.SingleSends

open Runs Tables Texts DisplayBlocks Schema ResponseStore ReplyStore Service ReplyDispatch
  ReplyDispatcher
open RecoveryAttempts (Attempts)

theorem isClick_iff {stage : Stage} : stage.isClick = true ↔ stage = .click := by
  cases stage <;> simp [Stage.isClick]

section Stages

variable (p : Libraries) (t : Thread) (r : Reading)

@[simp] theorem raised_ne_click : raised t r ≠ .click := by
  simp [raised]

@[simp] theorem otherwise_ne_click (otherwise : Otherwise) : otherwise.stage ≠ .click := by
  cases otherwise <;> simp [Otherwise.stage]

@[simp] theorem composerRead_ne_click : composerRead p t r ≠ .click := by
  unfold composerRead
  cases expectedComposerText p t.turn.userText with
  | error key => simp
  | ok requested =>
    dsimp only
    split <;> simp

@[simp] theorem judged_ne_click (round : Round) : judged t r round ≠ .click := by
  unfold judged
  repeat' split
  all_goals simp

@[simp] theorem polled_ne_click (stopped : Bool) : (polled t r stopped).stage ≠ .click := by
  unfold polled
  repeat' split
  all_goals simp

end Stages

/-- Only a successful claim brings a thread to the click. -/
theorem resume_click {p : Libraries} {t : Thread} {r : Reading} {ok stopped : Bool}
    {next : Progress} (h : resume p t r ok stopped = some next) (hclick : next.stage = .click) :
    t.stage = .claim ∧ r.raises = false ∧ ok = true ∧ next.owner = t.owner := by
  unfold resume at h
  cases hstage : t.stage <;> simp only [hstage] at h
  case claim =>
    split at h
    · cases h
      simp at hclick
    · rename_i hraises
      split at h
      · rename_i hok
        cases h
        exact ⟨rfl, by simpa using hraises, hok, rfl⟩
      · cases h
        simp at hclick
  all_goals
    repeat' split at h
    all_goals cases h
    all_goals simp at hclick

/-- A thread moves on from a raising operation, or as its reading says. -/
theorem moveOn_cases {p : Libraries} {t : Thread} {r : Reading} {ok stopped : Bool}
    {next : Progress} (h : moveOn p t r ok stopped = some next) :
    (∃ stage, interrupted t.stage = some stage ∧ r.storeFails = true ∧
      next = { t.toProgress with stage := stage }) ∨
    (resume p t r ok stopped = some next ∧
      (r.storeFails = true → interrupted t.stage = none)) := by
  unfold moveOn at h
  split at h
  · rename_i stage hstage
    obtain ⟨hstage, hfails⟩ := Option.filter_eq_some_iff.mp hstage
    exact Or.inl ⟨stage, hstage, hfails, (Option.some.inj h).symm⟩
  · rename_i hnone
    refine Or.inr ⟨h, fun hfails => ?_⟩
    cases hstage : interrupted t.stage with
    | none => rfl
    | some stage =>
      rw [hstage, hfails] at hnone
      cases hnone

theorem interrupted_ne_click {stage next : Stage} (h : interrupted stage = some next) :
    next ≠ .click := by
  unfold interrupted at h
  split at h
  all_goals first
    | (obtain rfl := Option.some.inj h; simp)
    | cases h

/-- The stage of the click is reached from the claim, by a write that succeeded. -/
theorem moveOn_click {p : Libraries} {t : Thread} {r : Reading} {ok stopped : Bool}
    {next : Progress} (h : moveOn p t r ok stopped = some next) (hclick : next.stage = .click) :
    t.stage = .claim ∧ r.raises = false ∧ r.storeFails = false ∧ ok = true ∧
      next.owner = t.owner := by
  rcases moveOn_cases h with ⟨stage, hstage, -, rfl⟩ | ⟨hresume, hstore⟩
  · exact absurd hclick (interrupted_ne_click hstage)
  · obtain ⟨hclaim, hraises, hok, howner⟩ := resume_click hresume hclick
    refine ⟨hclaim, hraises, ?_, hok, howner⟩
    rw [hclaim] at hstore
    cases hfails : r.storeFails with
    | false => rfl
    | true => cases hstore hfails

section Threads

variable {p : Libraries} {w : World}

/-- The main thread starts a thread for the turn that it was about to dispatch. -/
theorem resumeMain_threads (pid : ℕ) (d : Dispatcher) (r : Reading) (answer : Output) :
    (resumeMain w pid d r answer).threads = d.threads ∨
      ∃ left selected turn, d.main = .spawning left selected turn ∧
        (resumeMain w pid d r answer).threads =
          d.threads.insertNew { pid := pid, turn := turn } := by
  unfold resumeMain scheduleQueuedParentRecovery
  cases d.main with
  | spawning left selected turn =>
    dsimp only
    split
    · exact Or.inl rfl
    · exact Or.inr ⟨left, selected, turn, rfl, rfl⟩
  | scanning left selected =>
    left
    cases left with
    | zero => rfl
    | succ left =>
      dsimp only
      repeat' split
      all_goals rfl
  | _ =>
    left
    dsimp only
    repeat' split
    all_goals rfl

/-- A raising operation of the main thread starts no thread. -/
theorem interruptedMain_spec {d d' : Dispatcher} {r : Reading}
    (h : interruptedMain d r = some d') :
    d' = { d with main := .idle } ∨ ∃ left selected turn, d.main = .spawning left selected turn ∧
      d' = { d with active := discarded d.active turn.replyId, main := .idle } := by
  unfold interruptedMain at h
  cases hmain : d.main with
  | idle =>
    rw [hmain] at h
    obtain rfl := Option.some.inj h
    left
    rw [← hmain]
  | scheduling =>
    rw [hmain] at h
    exact Or.inl (Option.some.inj h).symm
  | spawning left selected turn =>
    simp only [hmain] at h
    split at h
    · exact Or.inr ⟨left, selected, turn, rfl, (Option.some.inj h).symm⟩
    · cases h
  | _ =>
    simp only [hmain] at h
    split at h
    · exact Or.inl (Option.some.inj h).symm
    · cases h

theorem moveMain_cases (pid : ℕ) (d : Dispatcher) (r : Reading) (answer : Output) :
    (∃ d', interruptedMain d r = some d' ∧ r.storeFails = true ∧
      moveMain w pid d r answer = d') ∨
      moveMain w pid d r answer = resumeMain w pid d r answer := by
  unfold moveMain
  split
  · rename_i d' hd
    obtain ⟨hd, hfails⟩ := Option.filter_eq_some_iff.mp hd
    exact Or.inl ⟨d', hd, hfails, rfl⟩
  · exact Or.inr rfl

theorem moveMain_threads (pid : ℕ) (d : Dispatcher) (r : Reading) (answer : Output) :
    (moveMain w pid d r answer).threads = d.threads ∨
      ∃ left selected turn, d.main = .spawning left selected turn ∧
        (moveMain w pid d r answer).threads =
          d.threads.insertNew { pid := pid, turn := turn } := by
  rcases moveMain_cases (w := w) pid d r answer with ⟨d', hd, -, hmove⟩ | hmove
  · rw [hmove]
    rcases interruptedMain_spec hd with rfl | ⟨_, _, _, -, rfl⟩
    · exact Or.inl rfl
    · exact Or.inl rfl
  · rw [hmove]
    exact resumeMain_threads pid d r answer

@[simp] theorem placeScheduled_threads (d : Dispatcher) (v : Recovery) (next : RecoveryStage) :
    (d.placeScheduled v next).threads = d.threads := by
  unfold Dispatcher.placeScheduled
  cases v.stage <;> dsimp only
  split <;> rfl

@[simp] theorem placeRequested_threads (d : Dispatcher) (v : Recovery) (next : RecoveryStage) :
    (d.placeRequested v next).threads = d.threads := by
  unfold Dispatcher.placeRequested
  cases v.stage <;> rfl

@[simp] theorem request_threads (d : Dispatcher) (sendId : String) :
    (d.request sendId).threads = d.threads := by
  unfold Dispatcher.request
  split <;> rfl

def answerOf (p : Libraries) (w : World) (m : Move) : Output :=
  (perform p w.store (storeCall w m)).2

def grantedTo (w : World) (m : Move) : Bool := (reserve w.attempts (slotCall w m)).2

/-- The thread of the reply moves: it goes on from `t` with the answers to its operation. -/
structure Moves (p : Libraries) (w : World) (m : Move) (pid : ℕ) (k : String) (t t' : Thread)
    (r : Reading) : Prop where
  move : m = .dispatch pid k r
  lookup : (w.dispatchers pid).threads.lookup k = some t
  resumed : moveOn p t r (succeeded (answerOf p w m) || grantedTo w m) (isStopped w.store k) =
    some t'.toProgress
  same : t'.pid = t.pid ∧ t'.turn = t.turn

/-- The main thread has started the thread. -/
structure Spawned (w : World) (pid : ℕ) (t : Thread) : Prop where
  fresh : t.toProgress = {}
  pid_eq : t.pid = pid
  main : ∃ left selected, (w.dispatchers pid).main = .spawning left selected t.turn

theorem lookup_update {d : Dispatcher} {q pid : ℕ} {k : String} {t' : Thread}
    (hd : d.threads = (w.dispatchers q).threads)
    (h : (Function.update w.dispatchers q d pid).threads.lookup k = some t') :
    (w.dispatchers pid).threads.lookup k = some t' := by
  by_cases hq : pid = q
  · subst hq
    rwa [Function.update_self, hd] at h
  · rwa [Function.update_of_ne hq] at h

/-- A main thread starts at most the thread of the turn that it has admitted. -/
theorem thread_after_main {q pid : ℕ} {r : Reading} {answer : Output} {k : String} {t' : Thread}
    (h : (Function.update w.dispatchers q (moveMain w q (w.dispatchers q) r answer)
      pid).threads.lookup k = some t') :
    (w.dispatchers pid).threads.lookup k = some t' ∨ Spawned w pid t' := by
  rcases moveMain_threads (w := w) q (w.dispatchers q) r answer with
    hsame | ⟨left, selected, turn, hmain, hnew⟩
  · exact Or.inl (lookup_update hsame h)
  · by_cases hq : pid = q
    · subst hq
      rw [Function.update_self, hnew] at h
      rcases Table.mem_insertNew (Table.lookup_mem h) with hold | hnew
      · rw [← Table.lookup_key h]
        exact Or.inl (Table.lookup_of_mem hold)
      · rw [hnew.1]
        exact Or.inr ⟨rfl, rfl, left, selected, hmain⟩
    · rw [Function.update_of_ne hq] at h
      exact Or.inl h

/-- The threads of a process after the move of one of them. -/
theorem thread_after_place {d : Dispatcher} {t t' : Thread} {replyId k : String}
    {next : Option Progress} (hlookup : d.threads.lookup replyId = some t)
    (h : (d.place replyId next).threads.lookup k = some t') :
    d.threads.lookup k = some t' ∧ k ≠ replyId ∨
      ∃ progress, next = some progress ∧ k = replyId ∧ t' = { t with toProgress := progress } := by
  cases next with
  | none =>
    dsimp only [Dispatcher.place] at h
    rw [Table.lookup_delete] at h
    obtain ⟨hold, hkept⟩ := Option.filter_eq_some_iff.mp h
    refine Or.inl ⟨hold, ?_⟩
    rintro rfl
    simp [Table.lookup_key hold] at hkept
  | some progress =>
    dsimp only [Dispatcher.place] at h
    by_cases hk : k = replyId
    · subst hk
      rw [Table.lookup_updateAt_self, hlookup] at h
      obtain rfl : { t with toProgress := progress } = t' := by simpa using h
      exact Or.inr ⟨progress, rfl, rfl, rfl⟩
    · rw [Table.lookup_updateAt_ne _ _ _ _ _ _ hk] at h
      exact Or.inl ⟨h, hk⟩

/-- A thread of a process is at rest during the move, is new, or is the one that moves. -/
theorem thread_after {m : Move} {pid : ℕ} {k : String} {t' : Thread}
    (h : ((step p w m).1.dispatchers pid).threads.lookup k = some t') :
    ((w.dispatchers pid).threads.lookup k = some t' ∧ ∀ r, m ≠ .dispatch pid k r) ∨
      Spawned w pid t' ∨ ∃ t r, Moves p w m pid k t t' r := by
  change (moved p w (answerOf p w m) (grantedTo w m) m pid).threads.lookup k = some t' at h
  cases m with
  | service call => exact Or.inl ⟨h, by simp⟩
  | reads call => exact Or.inl ⟨h, by simp⟩
  | main q r =>
    rcases thread_after_main h with hold | hnew
    · exact Or.inl ⟨hold, by simp⟩
    · exact Or.inr (Or.inl hnew)
  | dispatch q replyId r =>
    dsimp only [moved] at h
    cases hlookup : (w.dispatchers q).threads.lookup replyId with
    | none =>
      rw [hlookup] at h
      refine Or.inl ⟨h, ?_⟩
      rintro r' ⟨⟩
      rw [hlookup] at h
      cases h
    | some t =>
      rw [hlookup] at h
      dsimp only at h
      by_cases hq : pid = q
      · subst hq
        rw [Function.update_self] at h
        rcases thread_after_place hlookup h with ⟨hold, hk⟩ | ⟨progress, hnext, rfl, rfl⟩
        · refine Or.inl ⟨hold, ?_⟩
          rintro r' ⟨⟩
          exact hk rfl
        · exact Or.inr (Or.inr ⟨t, r, rfl, hlookup, hnext, rfl, rfl⟩)
      · rw [Function.update_of_ne hq] at h
        refine Or.inl ⟨h, ?_⟩
        rintro r' ⟨⟩
        exact hq rfl
  | request q sendId => exact Or.inl ⟨lookup_update (request_threads _ _) h, by simp⟩
  | requested q sendId r =>
    dsimp only [moved] at h
    cases hlookup : (w.dispatchers q).requested.lookup sendId with
    | none =>
      rw [hlookup] at h
      exact Or.inl ⟨h, by simp⟩
    | some v =>
      rw [hlookup] at h
      exact Or.inl ⟨lookup_update (placeRequested_threads _ _ _) h, by simp⟩
  | scheduled q sendId r =>
    dsimp only [moved] at h
    cases hlookup : (w.dispatchers q).scheduled.lookup sendId with
    | none =>
      rw [hlookup] at h
      exact Or.inl ⟨h, by simp⟩
    | some v =>
      rw [hlookup] at h
      exact Or.inl ⟨lookup_update (placeScheduled_threads _ _ _) h, by simp⟩
  | kill q =>
    dsimp only [moved] at h
    by_cases hq : pid = q
    · subst hq
      rw [Function.update_self] at h
      cases h
    · rw [Function.update_of_ne hq] at h
      exact Or.inl ⟨h, by simp⟩

theorem step_store (p : Libraries) (w : World) (m : Move) :
    (step p w m).1.store = (perform p w.store (storeCall w m)).1 :=
  rfl

theorem step_dispatchedIn {k owner : String} (m : Move)
    (h : DispatchedIn k owner True w.store) :
    DispatchedIn k owner True (step p w m).1.store := by
  rw [step_store]
  cases storeCall w m with
  | none => exact h
  | some call => exact step_dispatched p.lib w.store call k owner True (fun _ => trivial) h

/-- A thread that comes to the click has claimed its reply in that move. -/
theorem claimed_in_move {m : Move} {pid : ℕ} {k : String} {t t' : Thread} {r : Reading}
    (h : Moves p w m pid k t t' r) (hclick : t'.stage = .click) :
    (∃ row, w.store.chats.replies.lookup k = some row ∧ row.status = .prepared) ∧
      DispatchedIn k t'.owner True (step p w m).1.store := by
  obtain ⟨hstage, hraises, hfails, hok, howner⟩ := moveOn_click h.resumed hclick
  have hkey : t.replyId = k := Table.lookup_key h.lookup
  have hcall : storeCall w m = some ⟨.queue (.claimReply k t.owner
      (r.now + maxOwnedTabAgeSeconds) r.fireAndForget r.maxActive), r.now⟩ := by
    rw [h.move]
    simp [storeCall, attempted, h.lookup, action, hstage, hraises, hfails, hkey]
  have hgranted : grantedTo w m = false := by
    unfold grantedTo
    rw [h.move]
    simp [slotCall, h.lookup, hstage, Stage.isSlot, reserve]
  have hanswer : succeeded (answerOf p w m) = true := by
    rw [hgranted, Bool.or_false] at hok
    exact hok
  have houtput : (eventOf p.lib w.store ⟨.queue (.claimReply k t.owner
      (r.now + maxOwnedTabAgeSeconds) r.fireAndForget r.maxActive), r.now⟩).output =
      .changed true := by
    unfold answerOf at hanswer
    rw [hcall] at hanswer
    cases hout : (perform p w.store (some ⟨.queue (.claimReply k t.owner
      (r.now + maxOwnedTabAgeSeconds) r.fireAndForget r.maxActive), r.now⟩)).2 with
    | changed ok =>
      rw [hout] at hanswer
      obtain rfl : ok = true := hanswer
      exact hout
    | _ =>
      rw [hout] at hanswer
      cases hanswer
  obtain ⟨hprepared, row, hrow, hstatus, hlease⟩ := claims_effect p.lib _ k t.owner rfl
    ⟨Or.inr ⟨_, _, _, rfl⟩, houtput⟩
  refine ⟨hprepared, row, ?_, by rw [hstatus]; rfl, fun _ => Or.inl ?_⟩
  · rw [step_store, hcall]
    exact hrow
  · rw [hlease]
    exact howner.symm

/-- A thread about to click has claimed its reply, and no other thread is about to. -/
structure Claimed (w : World) : Prop where
  dispatched : ∀ pid k t, (w.dispatchers pid).threads.lookup k = some t → t.stage = .click →
    DispatchedIn k t.owner True w.store
  sole : ∀ pid pid' k t t', (w.dispatchers pid).threads.lookup k = some t → t.stage = .click →
    (w.dispatchers pid').threads.lookup k = some t' → t'.stage = .click → pid = pid'

/-- The reply has been dispatched, and no thread is about to click for it. -/
structure Spent (k : String) (w : World) : Prop where
  dispatched : ∃ owner, DispatchedIn k owner True w.store
  resting : ∀ pid t, (w.dispatchers pid).threads.lookup k = some t → t.stage ≠ .click

theorem not_prepared {k owner : String} (h : DispatchedIn k owner True w.store)
    (hprepared : ∃ row, w.store.chats.replies.lookup k = some row ∧ row.status = .prepared) :
    False := by
  obtain ⟨row, hrow, hdispatched⟩ := h
  obtain ⟨row', hrow', hstatus⟩ := hprepared
  obtain rfl : row = row' := Option.some.inj (hrow.symm.trans hrow')
  exact not_dispatched hstatus rfl hdispatched

/-- Where a thread about to click comes from: it has waited since, or it has just claimed. -/
theorem click_after {m : Move} {pid : ℕ} {k : String} {t' : Thread}
    (h : ((step p w m).1.dispatchers pid).threads.lookup k = some t')
    (hclick : t'.stage = .click) :
    ((w.dispatchers pid).threads.lookup k = some t' ∧ ∀ r, m ≠ .dispatch pid k r) ∨
      ((∃ row, w.store.chats.replies.lookup k = some row ∧ row.status = .prepared) ∧
        DispatchedIn k t'.owner True (step p w m).1.store ∧ ∃ r, m = .dispatch pid k r) := by
  rcases thread_after h with hold | hnew | ⟨t, r, hmoves⟩
  · exact Or.inl hold
  · rw [hnew.fresh] at hclick
    cases hclick
  · obtain ⟨hprepared, hdispatched⟩ := claimed_in_move hmoves hclick
    exact Or.inr ⟨hprepared, hdispatched, r, hmoves.move⟩

theorem step_claimed (hw : Claimed w) (m : Move) : Claimed (step p w m).1 where
  dispatched pid k t ht hclick := by
    rcases click_after ht hclick with ⟨hold, -⟩ | ⟨-, hdispatched, -⟩
    · exact step_dispatchedIn m (hw.dispatched pid k t hold hclick)
    · exact hdispatched
  sole pid pid' k t t' ht hclick ht' hclick' := by
    rcases click_after ht hclick with ⟨hold, -⟩ | ⟨hprepared, -, r, hmove⟩
    · rcases click_after ht' hclick' with ⟨hold', -⟩ | ⟨hprepared, -⟩
      · exact hw.sole pid pid' k t t' hold hclick hold' hclick'
      · exact (not_prepared (hw.dispatched pid k t hold hclick) hprepared).elim
    · rcases click_after ht' hclick' with ⟨hold', -⟩ | ⟨-, -, r', hmove'⟩
      · exact (not_prepared (hw.dispatched pid' k t' hold' hclick') hprepared).elim
      · rw [hmove] at hmove'
        cases hmove'
        rfl

theorem step_spent {k : String} (hw : Spent k w) (m : Move) : Spent k (step p w m).1 where
  dispatched := by
    obtain ⟨owner, hdispatched⟩ := hw.dispatched
    exact ⟨owner, step_dispatchedIn m hdispatched⟩
  resting pid t ht hclick := by
    rcases click_after ht hclick with ⟨hold, -⟩ | ⟨hprepared, -⟩
    · exact hw.resting pid t hold hclick
    · obtain ⟨owner, hdispatched⟩ := hw.dispatched
      exact not_prepared hdispatched hprepared

/-- What a click needs: a thread after its claim, and a composer that shows its reply. -/
theorem clicked_thread {m : Move} {t : Thread} (h : clicked p w m = some t) :
    ∃ pid r, m = .dispatch pid t.replyId r ∧
      (w.dispatchers pid).threads.lookup t.replyId = some t ∧ t.stage = .click ∧
        showsMessage p t.turn.userText r.click = true := by
  cases m with
  | dispatch pid replyId r =>
    obtain ⟨hlookup, hclicks⟩ := Option.filter_eq_some_iff.mp h
    obtain rfl : t.replyId = replyId := Table.lookup_key hlookup
    simp only [clickSend, Bool.and_eq_true] at hclicks
    exact ⟨pid, r, rfl, hlookup, isClick_iff.mp hclicks.1, hclicks.2.2⟩
  | _ => cases h

theorem spent_after_click {m : Move} {t : Thread} (hw : Claimed w)
    (h : clicked p w m = some t) : Spent t.replyId (step p w m).1 := by
  obtain ⟨pid, r, hmove, hlookup, hclick, -⟩ := clicked_thread h
  have hdispatched := hw.dispatched pid t.replyId t hlookup hclick
  refine ⟨⟨t.owner, step_dispatchedIn m hdispatched⟩, ?_⟩
  intro pid' t' ht' hclick'
  rcases click_after ht' hclick' with ⟨hold', hrest⟩ | ⟨hprepared, -⟩
  · obtain rfl := hw.sole pid pid' t.replyId t t' hlookup hclick hold' hclick'
    exact hrest r hmove
  · exact not_prepared hdispatched hprepared

def sentReplies (p : Libraries) (w : World) (run : List Move) : List String :=
  ((events (step p) w run).filterMap Event.output).map Thread.replyId

theorem sentReplies_cons (m : Move) (run : List Move) :
    sentReplies p w (m :: run) =
      ((clicked p w m).map Thread.replyId).toList ++ sentReplies p (step p w m).1 run := by
  unfold sentReplies
  simp only [events]
  change (List.filterMap Event.output (⟨w, m, clicked p w m, _⟩ :: _)).map _ = _
  cases hclicked : clicked p w m with
  | none => rfl
  | some t => rfl

theorem spent_unsent {k : String} (run : List Move) (hw : Spent k w) :
    k ∉ sentReplies p w run := by
  induction run generalizing w with
  | nil => exact List.not_mem_nil
  | cons m run ih =>
    rw [sentReplies_cons, List.mem_append, not_or]
    refine ⟨?_, ih (step_spent hw m)⟩
    intro hk
    obtain ⟨t, hclicked, rfl⟩ := by simpa using hk
    obtain ⟨pid, r, -, hlookup, hclick, -⟩ := clicked_thread hclicked
    exact hw.resting pid t hlookup hclick

theorem sentReplies_nodup (run : List Move) (hw : Claimed w) :
    (sentReplies p w run).Nodup := by
  induction run generalizing w with
  | nil => exact List.nodup_nil
  | cons m run ih =>
    rw [sentReplies_cons]
    have hrest := ih (step_claimed (p := p) hw m)
    cases hclicked : clicked p w m with
    | none => simpa using hrest
    | some t => simpa [hrest] using spent_unsent run (spent_after_click hw hclicked)

end Threads

section Turns

variable {p : Libraries} {w : World}

/-- The row has the text of the turn and its place on the branch. -/
def SameTurn (turn row : ReplyRow) : Prop :=
  row.userText = turn.userText ∧ row.conversationId = turn.conversationId ∧
    row.parentId = turn.parentId ∧ row.status ≠ .queued

/-- The turn that a thread dispatches still is the saved reply. -/
def Saved (turn : ReplyRow) (s : Store) : Prop :=
  ∃ row, s.chats.replies.lookup turn.replyId = some row ∧ SameTurn turn row

/-- A reply that has left the queue keeps its text and its place on the branch. -/
theorem change_saved {lib : Stdlib} {s : Store} {call : Call} {row row' turn : ReplyRow}
    (h : ReplyChange lib s call row row') (hrow : SameTurn turn row) : SameTurn turn row' := by
  obtain ⟨htext, hconversation, hparent, hstatus⟩ := hrow
  refine ⟨?_, ?_, ?_, ?_⟩
  · cases h <;> exact htext
  · cases h
    case bound hqueued _ => exact absurd hqueued hstatus
    all_goals exact hconversation
  · cases h
    case bound hqueued _ => exact absurd hqueued hstatus
    all_goals exact hparent
  · cases h
    case authorized => exact hstatus
    case progress => exact hstatus
    case renewed => exact hstatus
    case loaded => exact hstatus
    case identified =>
      unfold identifiedReply
      dsimp only
      split
      · simp
      · exact hstatus
    case observed owner capture _ _ _ =>
      unfold observeRow
      dsimp only
      split <;> simp
    case ended =>
      unfold endedReply
      dsimp only
      split <;> simp
    case orphaned =>
      unfold endedReply
      dsimp only
      split <;> simp
    case recovered capture _ _ _ =>
      unfold recoverReplyRow
      dsimp only
      split
      · simp
      · exact hstatus
    all_goals exact nofun

theorem step_saved {turn : ReplyRow} (h : Saved turn w.store) (m : Move) :
    Saved turn (step p w m).1.store := by
  rw [step_store]
  cases storeCall w m with
  | none => exact h
  | some call =>
    obtain ⟨row, hrow, hsaved⟩ := h
    obtain ⟨row', hrow', hpath⟩ := (step_replies p.lib w.store call).lookup_some
      (fun _ _ h => h.replyId_eq) hrow
    refine ⟨row', hrow', reflTransGen_keeps (P := SameTurn turn) ?_ hpath hsaved⟩
    intro a b hab ha
    exact change_saved hab ha

/-- What `prepare` returns is the saved row. -/
theorem prepare_saved {c : Chats} {sendId : String} {intent : ReplyIntent} {now : Time}
    {turn : ReplyRow} (h : (prepare c sendId intent now).2 = .ok turn) :
    (prepare c sendId intent now).1.replies.lookup turn.replyId = some turn := by
  unfold prepare at h ⊢
  cases hexisting : c.replies.lookup intent.replyId with
  | some existing =>
    rw [hexisting] at h
    dsimp only at h ⊢
    split at h
    · rename_i hsame
      rw [if_pos hsame]
      obtain rfl : existing = turn := Except.ok.inj h
      rw [Table.lookup_key hexisting]
      exact hexisting
    · cases h
  | none =>
    rw [hexisting] at h
    dsimp only at h ⊢
    repeat' split at h
    all_goals try cases h
    rename_i hnone
    simp_all [Table.lookup_insertNew_self, preparedRow]

theorem retryPreflight_saved {c : Chats} {k : String} {now : Time} {turn : ReplyRow}
    (h : (retryPreflight c k now).2 = .ok turn) :
    (retryPreflight c k now).1.replies.lookup turn.replyId = some turn := by
  unfold retryPreflight at h ⊢
  dsimp only at h ⊢
  split at h
  · rename_i row hrow
    obtain rfl : row = turn := Except.ok.inj h
    dsimp only
    rw [Table.lookup_key hrow]
    exact hrow
  · cases h

def mainTurn : Main → Option ReplyRow
  | .admitting _ _ turn => some turn
  | .spawning _ _ turn => some turn
  | _ => none

theorem rearmed_cases {turn next : ReplyRow} {answer : Output}
    (h : rearmedTurn turn answer = some next) :
    next = turn ∨ (turn.status = .preflightFailed ∧ answer = .turn (.ok next) ∧
      next.status = .prepared) := by
  unfold rearmedTurn at h
  split at h
  · rename_i hfailed
    split at h
    · rename_i turn'
      split at h
      · rename_i hprepared
        obtain rfl := Option.some.inj h
        exact Or.inr ⟨hfailed, rfl, hprepared⟩
      · cases h
    · cases h
  · exact Or.inl (Option.some.inj h).symm

/-- The turn of the main thread is the one it had, or it is the row that its operation gave. -/
theorem resumeMain_turn {pid : ℕ} {d : Dispatcher} {r : Reading} {answer : Output}
    {turn : ReplyRow} (h : mainTurn (resumeMain w pid d r answer).main = some turn) :
    mainTurn d.main = some turn ∨
      (answer = .turn (.ok turn) ∧ turn.status ≠ .queued ∧
        ((∃ sendId intent, mainAction d r = some (.reply (.prepare sendId intent))) ∨
          ∃ k, mainAction d r = some (.reply (.retryPreflight k)))) := by
  unfold resumeMain scheduleQueuedParentRecovery at h
  cases hmain : d.main with
  | submitting left selected sendId intent =>
    rw [hmain] at h
    dsimp only at h
    split at h
    · split at h
      · rename_i hstatus
        obtain rfl := Option.some.inj h
        refine Or.inr ⟨rfl, ?_, Or.inl ⟨sendId, intent, ?_⟩⟩
        · rcases hstatus with hstatus | hstatus <;> simp [hstatus]
        · unfold mainAction
          rw [hmain]
      · cases h
    · cases h
  | admitting left selected old =>
    rw [hmain] at h
    dsimp only at h
    split at h
    · cases h
    · rename_i hfree
      split at h
      · rename_i next hnext
        obtain rfl := Option.some.inj h
        rcases rearmed_cases hnext with rfl | ⟨hfailed, hanswer, hprepared⟩
        · exact Or.inl rfl
        · refine Or.inr ⟨hanswer, by simp [hprepared], Or.inr ⟨old.replyId, ?_⟩⟩
          unfold mainAction
          rw [hmain]
          simp [hfree, hfailed]
      · cases h
  | scanning left selected =>
    rw [hmain] at h
    cases left with
    | zero =>
      dsimp only [scanned] at h
      split at h <;> cases h
    | succ left =>
      dsimp only [scanned] at h
      repeat' split at h
      all_goals cases h
  | _ =>
    rw [hmain] at h
    dsimp only at h
    repeat' split at h
    all_goals first
      | cases h
      | (rw [hmain] at h; cases h)

/-- Every turn in the hands of a process still is the saved reply. -/
structure Current (w : World) : Prop where
  main : ∀ pid turn, mainTurn (w.dispatchers pid).main = some turn → Saved turn w.store
  thread : ∀ pid k t, (w.dispatchers pid).threads.lookup k = some t → Saved t.turn w.store

theorem place_main (d : Dispatcher) (k : String) (next : Option Progress) :
    (d.place k next).main = d.main := by
  cases next <;> rfl

theorem placeScheduled_main (d : Dispatcher) (v : Recovery) (next : RecoveryStage) :
    (d.placeScheduled v next).main = d.main := by
  unfold Dispatcher.placeScheduled
  cases v.stage <;> dsimp only
  split <;> rfl

theorem placeRequested_main (d : Dispatcher) (v : Recovery) (next : RecoveryStage) :
    (d.placeRequested v next).main = d.main := by
  unfold Dispatcher.placeRequested
  cases v.stage <;> rfl

theorem request_main (d : Dispatcher) (sendId : String) : (d.request sendId).main = d.main := by
  unfold Dispatcher.request
  split <;> rfl

/-- The main thread of a process rests, moves, or is gone with its process. -/
theorem main_after (m : Move) (pid : ℕ) :
    ((step p w m).1.dispatchers pid).main = (w.dispatchers pid).main ∨
      (∃ r, m = .main pid r ∧ ((step p w m).1.dispatchers pid).main =
        (moveMain w pid (w.dispatchers pid) r (answerOf p w m)).main) ∨
      ((step p w m).1.dispatchers pid).main = .idle := by
  have hafter : (step p w m).1.dispatchers pid = moved p w (answerOf p w m) (grantedTo w m) m pid :=
    rfl
  rw [hafter]
  have hother : ∀ {q : ℕ} {d : Dispatcher}, d.main = (w.dispatchers q).main →
      (Function.update w.dispatchers q d pid).main = (w.dispatchers pid).main := by
    intro q d hd
    by_cases hq : pid = q
    · subst hq
      rw [Function.update_self, hd]
    · rw [Function.update_of_ne hq]
  cases m with
  | service call => exact Or.inl rfl
  | reads call => exact Or.inl rfl
  | main q r =>
    dsimp only [moved]
    by_cases hq : pid = q
    · subst hq
      rw [Function.update_self]
      exact Or.inr (Or.inl ⟨r, rfl, rfl⟩)
    · rw [Function.update_of_ne hq]
      exact Or.inl rfl
  | dispatch q k r =>
    dsimp only [moved]
    cases (w.dispatchers q).threads.lookup k with
    | none => exact Or.inl rfl
    | some t => exact Or.inl (hother (place_main _ _ _))
  | request q sendId => exact Or.inl (hother (request_main _ _))
  | requested q sendId r =>
    dsimp only [moved]
    cases (w.dispatchers q).requested.lookup sendId with
    | none => exact Or.inl rfl
    | some v => exact Or.inl (hother (placeRequested_main _ _ _))
  | scheduled q sendId r =>
    dsimp only [moved]
    cases (w.dispatchers q).scheduled.lookup sendId with
    | none => exact Or.inl rfl
    | some v => exact Or.inl (hother (placeScheduled_main _ _ _))
  | kill q =>
    dsimp only [moved]
    by_cases hq : pid = q
    · subst hq
      rw [Function.update_self]
      exact Or.inr (Or.inr rfl)
    · rw [Function.update_of_ne hq]
      exact Or.inl rfl

/-- The turn after a move of the main thread is the one it had, or it is the row that its
operation gave. -/
theorem moveMain_turn {pid : ℕ} {d : Dispatcher} {r : Reading} {answer : Output}
    {turn : ReplyRow} (h : mainTurn (moveMain w pid d r answer).main = some turn) :
    mainTurn d.main = some turn ∨
      (answer = .turn (.ok turn) ∧ turn.status ≠ .queued ∧
        ((∃ sendId intent, mainAction d r = some (.reply (.prepare sendId intent))) ∨
          ∃ k, mainAction d r = some (.reply (.retryPreflight k)))) := by
  rcases moveMain_cases (w := w) pid d r answer with ⟨d', hd, -, hmove⟩ | hmove
  · rw [hmove] at h
    rcases interruptedMain_spec hd with rfl | ⟨_, _, _, -, rfl⟩ <;> cases h
  · rw [hmove] at h
    exact resumeMain_turn h

/-- The turn that the main thread takes up is the saved row. -/
theorem saved_of_answer {m : Move} {pid : ℕ} {r : Reading} {turn : ReplyRow}
    (hmove : m = .main pid r) (hanswer : answerOf p w m = .turn (.ok turn))
    (hstatus : turn.status ≠ .queued)
    (haction : (∃ sendId intent, mainAction (w.dispatchers pid) r =
        some (.reply (.prepare sendId intent))) ∨
      ∃ k, mainAction (w.dispatchers pid) r = some (.reply (.retryPreflight k))) :
    Saved turn (step p w m).1.store := by
  subst hmove
  refine ⟨turn, ?_, rfl, rfl, rfl, hstatus⟩
  rw [step_store]
  unfold answerOf at hanswer
  have hstored : r.storeFails = false := by
    cases hfails : r.storeFails with
    | false => rfl
    | true =>
      simp only [storeCall, attempted, hfails, if_true] at hanswer
      cases hanswer
  rcases haction with ⟨sendId, intent, haction⟩ | ⟨k, haction⟩
  · have hcall : storeCall w (.main pid r) = some ⟨.reply (.prepare sendId intent), r.now⟩ := by
      simp [storeCall, attempted, hstored, haction]
    rw [hcall] at hanswer ⊢
    exact prepare_saved (Output.turn.inj hanswer)
  · have hcall : storeCall w (.main pid r) = some ⟨.reply (.retryPreflight k), r.now⟩ := by
      simp [storeCall, attempted, hstored, haction]
    rw [hcall] at hanswer ⊢
    exact retryPreflight_saved (Output.turn.inj hanswer)

theorem step_current (hw : Current w) (m : Move) : Current (step p w m).1 where
  main pid turn h := by
    rcases main_after (p := p) (w := w) m pid with hsame | ⟨r, hmove, hmain⟩ | hidle
    · rw [hsame] at h
      exact step_saved (hw.main pid turn h) m
    · rw [hmain] at h
      rcases moveMain_turn h with hold | ⟨hanswer, hstatus, haction⟩
      · exact step_saved (hw.main pid turn hold) m
      · exact saved_of_answer hmove hanswer hstatus haction
    · rw [hidle] at h
      cases h
  thread pid k t h := by
    rcases thread_after h with ⟨hold, -⟩ | hnew | ⟨t₀, r, hmoves⟩
    · exact step_saved (hw.thread pid k t hold) m
    · obtain ⟨left, selected, hmain⟩ := hnew.main
      refine step_saved (hw.main pid t.turn ?_) m
      rw [hmain]
      rfl
    · rw [hmoves.same.2]
      exact step_saved (hw.thread pid k t₀ hmoves.lookup) m

end Turns

def start (s : Store) (a : Attempts) : World where
  store := s
  attempts := a

theorem start_claimed (s : Store) (a : Attempts) : Claimed (start s a) where
  dispatched pid k t h := by cases h
  sole pid pid' k t t' h := by cases h

theorem start_current (s : Store) (a : Attempts) : Current (start s a) where
  main pid turn h := by cases h
  thread pid k t h := by cases h

/-- Over every run, from any stores: no reply's send control is clicked twice. A thread that
clicks has claimed its reply, the reply still has the turn's text and its place on the branch,
and the composer shows that text. -/
theorem sent_at_most_once (p : Libraries) (s : Store) (a : Attempts) (run : List Move) :
    (sentReplies p (start s a) run).Nodup ∧
      ∀ e ∈ events (step p) (start s a) run, ∀ t, e.output = some t →
        DispatchedIn t.replyId t.owner True e.pre.store ∧ Saved t.turn e.pre.store ∧
          ∃ pid r, e.input = .dispatch pid t.replyId r ∧
            showsMessage p t.turn.userText r.click = true := by
  refine ⟨sentReplies_nodup run (start_claimed s a), ?_⟩
  intro e he t ht
  have hpre : Claimed e.pre ∧ Current e.pre := by
    refine event_invariant (step p) (fun _ _ => True) (fun w => Claimed w ∧ Current w) ?_
      (start s a) ⟨start_claimed s a, start_current s a⟩ run
      ((meets_iff_events _ _ _ _).mpr fun _ _ => trivial) e he
    intro w m _ hw
    exact ⟨step_claimed hw.1 m, step_current hw.2 m⟩
  have hclicked : clicked p e.pre e.input = some t := by
    have hstep := congrArg Prod.snd (event_step (step p) (start s a) run e he)
    rw [← ht]
    exact hstep
  obtain ⟨pid, r, hmove, hlookup, hclick, hshows⟩ := clicked_thread hclicked
  exact ⟨hpre.1.dispatched pid t.replyId t hlookup hclick,
    hpre.2.thread pid t.replyId t hlookup, pid, r, hmove, hshows⟩

def waitingStore : Store :=
  { Store.empty with
    chats :=
      { Store.empty.chats with
        results := Table.empty.insertNew
          { sendId := "manual-1", userText := "hello".toList, status := .completed,
            conversationId := "c-1", messageId := "m-1", createdAt := 1, updatedAt := 2 }
        replies := Table.empty.insertNew
          { replyId := "reply-1", sendId := "manual-1", userText := "go on".toList,
            status := .queued, queuedByUser := true, createdAt := 5, updatedAt := 5 } } }

def plainLibraries : Libraries where
  lib := plainLib
  letters := ComposerMentions.asciiLetters
  mentions := [ComposerMentions.glass]

def inOrder : Reading where
  now := 10
  name := "a"
  verified := true
  composer := "go  on".toList
  click := { composer := "go on ".toList }

/-- The pump picks the follow-up, and its thread dispatches it. -/
def oneDispatch : List Move :=
  List.replicate 5 (.main 7 inOrder) ++ List.replicate 15 (.dispatch 7 "reply-1" inOrder)

def beforeClick : World :=
  final (step plainLibraries) (start waitingStore Table.empty) (oneDispatch.take 19)

def theClick : Event World Move (Option Thread) :=
  ⟨beforeClick, .dispatch 7 "reply-1" inOrder,
    (step plainLibraries beforeClick (.dispatch 7 "reply-1" inOrder)).2,
    (step plainLibraries beforeClick (.dispatch 7 "reply-1" inOrder)).1⟩

theorem theClick_mem :
    theClick ∈ events (step plainLibraries) (start waitingStore Table.empty) oneDispatch := by
  change _ ∈ events _ _ (oneDispatch.take 19 ++ [.dispatch 7 "reply-1" inOrder])
  rw [events_append]
  exact List.mem_append_right _ List.mem_cons_self

theorem theClick_clicks : theClick.output.isSome = true := by decide +kernel

theorem sent_at_most_once_oneDispatch :
    (sentReplies plainLibraries (start waitingStore Table.empty) oneDispatch).Nodup ∧
      ∃ t, theClick.output = some t ∧ DispatchedIn t.replyId t.owner True theClick.pre.store ∧
        Saved t.turn theClick.pre.store ∧ ∃ pid r, theClick.input = .dispatch pid t.replyId r ∧
          showsMessage plainLibraries t.turn.userText r.click = true := by
  obtain ⟨t, ht⟩ := Option.isSome_iff_exists.mp theClick_clicks
  have hsends := sent_at_most_once plainLibraries waitingStore Table.empty oneDispatch
  exact ⟨hsends.1, t, ht, hsends.2 theClick theClick_mem t ht⟩

end Prompta.SingleSends
