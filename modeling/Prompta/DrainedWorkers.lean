import Prompta.HeldLeases

/-!
What a worker has in flight. The sets of a process name its threads exactly, so a count of
zero means that no thread is left. A process dispatches at most two replies at once and
verifies at most one queued chat, and no chat is verified by two of its threads. A worker that
has drained leaves no reply under a lease but where the last write of a thread raised.
-/
namespace Prompta.DrainedWorkers

open Runs Tables Texts DisplayBlocks Schema ResponseStore ReplyStore Service ReplyDispatcher
  SingleSends HeldLeases
open RecoveryAttempts (Attempts)

@[simp] theorem mem_added {names : List String} {name other : String} :
    other ∈ added names name ↔ other ∈ names ∨ other = name := by
  unfold added
  split
  · rename_i h
    constructor
    · exact Or.inl
    · rintro (hmem | rfl)
      · exact hmem
      · exact h
  · simp

@[simp] theorem mem_discarded {names : List String} {name other : String} :
    other ∈ discarded names name ↔ other ∈ names ∧ other ≠ name := by
  simp [discarded]

theorem added_length (names : List String) (name : String) :
    (added names name).length ≤ names.length + 1 := by
  unfold added
  split <;> simp

theorem discarded_length (names : List String) (name : String) :
    (discarded names name).length ≤ names.length :=
  List.length_filter_le _ names

/-- The reply that the main thread has admitted and is about to start a thread for. -/
def spawningTurn : Main → Option String
  | .spawning _ _ turn => some turn.replyId
  | _ => none

/-- The chat that the main thread is about to start a recovery for. -/
def spawningChat : Main → Option String
  | .spawningRecovery sendId => some sendId
  | _ => none

/-- The main thread has seen a free place and has yet to fill it. -/
def takesPlace : Main → Bool
  | .submitting _ _ _ _ => true
  | .admitting _ _ _ => true
  | _ => false

/-- The recovery is past the check of `_recovering` and has not left it. -/
def verifying : RecoveryStage → Bool
  | .enter => false
  | .leave => false
  | _ => true

/-- What a move of the main thread does to the sets and the threads of its process. -/
inductive MainStep (pid : ℕ) (d : Dispatcher) : Dispatcher → Prop
  | turned (main : Main) (hturn : spawningTurn d.main = none) (hchat : spawningChat d.main = none)
      (hturn' : spawningTurn main = none) (hchat' : spawningChat main = none)
      (hplace : takesPlace main = true →
        takesPlace d.main = true ∨ d.active.length < maxQueuedReplyDispatches) :
      MainStep pid d { d with main := main }
  | admitted (left : ℕ) (selected : List String) (turn : ReplyRow)
      (hmain : takesPlace d.main = true) (hfree : turn.replyId ∉ d.active) :
      MainStep pid d { d with active := added d.active turn.replyId
                              main := .spawning left selected turn }
  | started (left : ℕ) (selected : List String) (turn : ReplyRow)
      (hmain : d.main = .spawning left selected turn) :
      MainStep pid d { d with threads := d.threads.insertNew { pid := pid, turn := turn }
                              main := .scanning left selected }
  | unstarted (left : ℕ) (selected : List String) (turn : ReplyRow) (main : Main)
      (hmain : d.main = .spawning left selected turn)
      (hnext : main = .scanning left selected ∨ main = .idle) :
      MainStep pid d { d with active := discarded d.active turn.replyId, main := main }
  | scheduled (sendId : String) (cursor : ℕ) (hmain : d.main = .scheduling)
      (hnone : d.recoveryScheduled = []) :
      MainStep pid d { d with recoveryScheduled := added d.recoveryScheduled sendId
                              recoveryCursor := cursor, main := .spawningRecovery sendId }
  | verified (sendId : String) (hmain : d.main = .spawningRecovery sendId) :
      MainStep pid d { d with scheduled := d.scheduled.insertNew ⟨sendId, .enter⟩, main := .idle }
  | unverified (sendId : String) (hmain : d.main = .spawningRecovery sendId) :
      MainStep pid d { d with recoveryScheduled := discarded d.recoveryScheduled sendId
                              main := .idle }

/-- The answer to a retry is the row of the reply that was retried. -/
def AnswersRetry (d : Dispatcher) (answer : Output) : Prop :=
  ∀ left selected old turn, d.main = .admitting left selected old → old.replyId ∉ d.active →
    old.status = .preflightFailed → answer = .turn (.ok turn) → turn.replyId = old.replyId

theorem resumeMain_step {w : World} {pid : ℕ} {d : Dispatcher} {r : Reading} {answer : Output}
    (hanswer : AnswersRetry d answer) : MainStep pid d (resumeMain w pid d r answer) := by
  unfold resumeMain
  cases hmain : d.main with
  | idle =>
    dsimp only
    split
    · have hself : d = { d with main := .idle } := by rw [← hmain]
      rw [hself]
      refine MainStep.turned .idle rfl rfl rfl rfl (by simp [takesPlace])
    · exact MainStep.turned _ (by rw [hmain]; rfl) (by rw [hmain]; rfl) rfl rfl
        (by simp [takesPlace])
  | scanning left selected =>
    have hplain : ∀ main, spawningTurn main = none → spawningChat main = none →
        (takesPlace main = true → takesPlace d.main = true ∨
          d.active.length < maxQueuedReplyDispatches) → MainStep pid d { d with main := main } :=
      fun main => MainStep.turned main (by rw [hmain]; rfl) (by rw [hmain]; rfl)
    have hscanned : MainStep pid d { d with main := scanned selected } := by
      unfold scanned
      split
      · exact hplain _ rfl rfl (by simp [takesPlace])
      · exact hplain _ rfl rfl (by simp [takesPlace])
    cases left with
    | zero => exact hscanned
    | succ left =>
      dsimp only
      split
      · exact hplain _ rfl rfl (by simp [takesPlace])
      · rename_i hplace
        split
        · exact hplain _ rfl rfl (fun _ => Or.inr (by omega))
        · exact hscanned
  | submitting left selected sendId intent =>
    have hplain : ∀ main, spawningTurn main = none → spawningChat main = none →
        MainStep pid d { d with main := main } := by
      intro main hturn hchat
      exact MainStep.turned main (by rw [hmain]; rfl) (by rw [hmain]; rfl) hturn hchat
        (fun _ => Or.inl (by rw [hmain]; rfl))
    dsimp only
    repeat' split
    all_goals exact hplain _ rfl rfl
  | admitting left selected old =>
    have hplain : ∀ main, spawningTurn main = none → spawningChat main = none →
        MainStep pid d { d with main := main } := by
      intro main hturn hchat
      exact MainStep.turned main (by rw [hmain]; rfl) (by rw [hmain]; rfl) hturn hchat
        (fun _ => Or.inl (by rw [hmain]; rfl))
    dsimp only
    split
    · exact hplain _ rfl rfl
    · rename_i hfree
      split
      · rename_i turn hturn
        have hsame : turn.replyId = old.replyId := by
          rcases rearmed_cases hturn with rfl | ⟨hfailed, hturn, -⟩
          · rfl
          · exact hanswer left selected old turn hmain hfree hfailed hturn
        exact MainStep.admitted left selected turn (by rw [hmain]; rfl) (by rw [hsame]; exact hfree)
      · exact hplain _ rfl rfl
  | spawning left selected turn =>
    dsimp only
    split
    · exact MainStep.unstarted left selected turn _ hmain (Or.inl rfl)
    · exact MainStep.started left selected turn hmain
  | scheduling =>
    have hidle : MainStep pid d { d with main := .idle } :=
      MainStep.turned _ (by rw [hmain]; rfl) (by rw [hmain]; rfl) rfl rfl (by simp [takesPlace])
    dsimp only
    unfold scheduleQueuedParentRecovery
    dsimp only
    split
    · exact hidle
    · rename_i hguard
      split
      · exact hidle
      · exact MainStep.scheduled _ _ hmain (by
          by_contra hsome
          exact hguard (Or.inl hsome))
  | spawningRecovery sendId =>
    dsimp only
    split
    · exact MainStep.unverified sendId hmain
    · exact MainStep.verified sendId hmain

theorem moveMain_step {w : World} {pid : ℕ} {d : Dispatcher} {r : Reading} {answer : Output}
    (hanswer : AnswersRetry d answer) : MainStep pid d (moveMain w pid d r answer) := by
  rcases moveMain_cases (w := w) pid d r answer with ⟨d', hd, -, hmove⟩ | hmove
  · rw [hmove]
    by_cases hspawning : ∃ left selected turn, d.main = .spawning left selected turn
    · obtain ⟨left, selected, turn, hmain⟩ := hspawning
      unfold interruptedMain at hd
      simp only [hmain] at hd
      split at hd
      · obtain rfl := Option.some.inj hd
        exact MainStep.unstarted left selected turn .idle hmain (Or.inr rfl)
      · cases hd
    · rcases interruptedMain_spec hd with rfl | ⟨left, selected, turn, hmain, -⟩
      · by_cases hchat : ∃ sendId, d.main = .spawningRecovery sendId
        · obtain ⟨sendId, hmain⟩ := hchat
          simp [interruptedMain, mainAction, hmain] at hd
        · refine MainStep.turned .idle ?_ ?_ rfl rfl (by simp [takesPlace])
          · cases hmain : d.main <;> first
              | rfl
              | exact absurd ⟨_, _, _, hmain⟩ hspawning
          · cases hmain : d.main <;> first
              | rfl
              | exact absurd ⟨_, hmain⟩ hchat
      · exact absurd ⟨left, selected, turn, hmain⟩ hspawning
  · rw [hmove]
    exact resumeMain_step hanswer

/-- `_active` names the threads that dispatch, and there are at most two. -/
structure DispatchesNamed (d : Dispatcher) : Prop where
  named : ∀ k, k ∈ d.active ↔ d.threads.lookup k ≠ none ∨ spawningTurn d.main = some k
  fresh : ∀ k, spawningTurn d.main = some k → d.threads.lookup k = none
  bound : d.active.length + (if takesPlace d.main then 1 else 0) ≤ maxQueuedReplyDispatches

/-- `_recovery_scheduled` names the scheduled recoveries, and there is at most one. -/
structure ScheduledNamed (d : Dispatcher) : Prop where
  named : ∀ k, k ∈ d.recoveryScheduled ↔
    d.scheduled.lookup k ≠ none ∨ spawningChat d.main = some k
  fresh : ∀ k, spawningChat d.main = some k → d.scheduled.lookup k = none
  bound : d.recoveryScheduled.length ≤ 1

/-- `_recovering` names the recoveries at work, and a chat has at most one. -/
structure RecoveriesNamed (d : Dispatcher) : Prop where
  named : ∀ k, k ∈ d.recovering ↔ d.requested.lookup k ≠ none ∨
    ∃ v, d.scheduled.lookup k = some v ∧ verifying v.stage = true
  requested : ∀ k v, d.requested.lookup k = some v → verifying v.stage = true
  apart : ∀ k v, d.requested.lookup k ≠ none → d.scheduled.lookup k = some v →
    verifying v.stage = false

section Dispatches

variable {pid : ℕ} {d d' : Dispatcher}

theorem DispatchesNamed.of_eq (h : DispatchesNamed d) (hactive : d'.active = d.active)
    (hthreads : d'.threads = d.threads) (hmain : d'.main = d.main) : DispatchesNamed d' where
  named k := by
    rw [hactive, hthreads, hmain]
    exact h.named k
  fresh k hk := by
    rw [hthreads]
    exact h.fresh k (by rw [← hmain]; exact hk)
  bound := by
    rw [hactive, hmain]
    exact h.bound

/-- What is in one of the sets after the insertion of a thread. -/
theorem lookup_insertNew_iff {α : Type} {key : α → String} (t : Table α String key) (r : α)
    (hfree : t.lookup (key r) = none) (k : String) :
    (t.insertNew r).lookup k ≠ none ↔ t.lookup k ≠ none ∨ key r = k := by
  by_cases hk : k = key r
  · subst hk
    rw [Table.lookup_insertNew_self hfree]
    simp
  · rw [Table.lookup_insertNew_ne _ _ hk]
    simp [Ne.symm hk]

/-- Between two stages of the main thread that are not about to start a thread. -/
theorem DispatchesNamed.turned (h : DispatchesNamed d) (hactive : d'.active = d.active)
    (hthreads : d'.threads = d.threads) (hturn : spawningTurn d.main = none)
    (hturn' : spawningTurn d'.main = none)
    (hplace : takesPlace d'.main = true →
      takesPlace d.main = true ∨ d.active.length < maxQueuedReplyDispatches) :
    DispatchesNamed d' where
  named k := by
    rw [hactive, hthreads, hturn', ← hturn]
    exact h.named k
  fresh k hk := by
    rw [hturn'] at hk
    cases hk
  bound := by
    have hbound := h.bound
    rw [hactive]
    by_cases hmain : takesPlace d'.main = true
    · rw [if_pos hmain]
      rcases hplace hmain with htakes | hroom
      · rwa [if_pos htakes] at hbound
      · omega
    · rw [if_neg hmain]
      omega

/-- An admitted reply takes the free place that the main thread has seen. -/
theorem DispatchesNamed.admitted (h : DispatchesNamed d) {turn : ReplyRow}
    (hmain : takesPlace d.main = true) (hfree : turn.replyId ∉ d.active)
    (left : ℕ) (selected : List String) :
    DispatchesNamed { d with
      active := added d.active turn.replyId
      main := .spawning left selected turn } := by
  have hplain : spawningTurn d.main = none := by
    cases hd : d.main <;> rw [hd] at hmain <;> first | rfl | cases hmain
  have hnone : d.threads.lookup turn.replyId = none := by
    by_contra hsome
    exact hfree ((h.named turn.replyId).mpr (Or.inl hsome))
  refine ⟨fun k => ?_, fun k hk => ?_, ?_⟩
  · have hnamed := h.named k
    rw [hplain] at hnamed
    simp only [mem_added, spawningTurn, Option.some.injEq]
    rw [hnamed]
    simp [eq_comm]
  · obtain rfl : turn.replyId = k := Option.some.inj hk
    exact hnone
  · have hlength := added_length d.active turn.replyId
    have hbound := h.bound
    rw [hmain, if_pos rfl] at hbound
    change (added d.active turn.replyId).length + 0 ≤ _
    omega

/-- The thread of the admitted reply is started. -/
theorem DispatchesNamed.started (h : DispatchesNamed d) {left : ℕ} {selected : List String}
    {turn : ReplyRow} (hmain : d.main = .spawning left selected turn) :
    DispatchesNamed { d with
      threads := d.threads.insertNew { pid := pid, turn := turn }
      main := .scanning left selected } := by
  have hnone : d.threads.lookup turn.replyId = none := h.fresh _ (by rw [hmain]; rfl)
  refine ⟨fun k => ?_, fun k hk => (by cases hk), ?_⟩
  · have hnamed := h.named k
    have hinsert := lookup_insertNew_iff d.threads { pid := pid, turn := turn } hnone k
    rw [hmain] at hnamed
    simp only [spawningTurn, Option.some.injEq] at hnamed
    dsimp only
    rw [hnamed, hinsert]
    simp [spawningTurn, Thread.replyId]
  · have hbound := h.bound
    simp only [takesPlace, hmain, Bool.false_eq_true, if_false] at hbound ⊢
    exact hbound

/-- The thread of the admitted reply could not be started, and its place is free again. -/
theorem DispatchesNamed.unstarted (h : DispatchesNamed d) {left : ℕ} {selected : List String}
    {turn : ReplyRow} {main : Main} (hmain : d.main = .spawning left selected turn)
    (hturn : spawningTurn main = none) (hplace : takesPlace main = false) :
    DispatchesNamed { d with active := discarded d.active turn.replyId, main := main } := by
  have hnone : d.threads.lookup turn.replyId = none := h.fresh _ (by rw [hmain]; rfl)
  refine ⟨fun k => ?_, fun k hk => (by rw [hturn] at hk; cases hk), ?_⟩
  · have hnamed := h.named k
    rw [hmain] at hnamed
    simp only [spawningTurn, Option.some.injEq] at hnamed
    dsimp only
    rw [hturn, mem_discarded, hnamed]
    constructor
    · rintro ⟨hsome | rfl, hk⟩
      · exact Or.inl hsome
      · exact absurd rfl hk
    · rintro (hsome | hk)
      · refine ⟨Or.inl hsome, ?_⟩
        rintro rfl
        exact hsome hnone
      · cases hk
  · have hlength := discarded_length d.active turn.replyId
    have hbound := h.bound
    simp only [takesPlace, hmain, Bool.false_eq_true, if_false] at hbound
    dsimp only
    rw [hplace]
    simp only [Bool.false_eq_true, if_false]
    omega

theorem step_dispatches (h : DispatchesNamed d) (hstep : MainStep pid d d') :
    DispatchesNamed d' := by
  cases hstep with
  | turned main hturn hchat hturn' hchat' hplace => exact h.turned rfl rfl hturn hturn' hplace
  | admitted left selected turn hmain hfree => exact h.admitted hmain hfree left selected
  | started left selected turn hmain => exact h.started hmain
  | unstarted left selected turn main hmain hnext =>
    have hturn : spawningTurn main = none := by rcases hnext with rfl | rfl <;> rfl
    have hplace : takesPlace main = false := by rcases hnext with rfl | rfl <;> rfl
    exact h.unstarted hmain hturn hplace
  | scheduled sendId cursor hmain hnone =>
    exact h.turned rfl rfl (by rw [hmain]; rfl) rfl fun hplace => nomatch hplace
  | verified sendId hmain =>
    exact h.turned rfl rfl (by rw [hmain]; rfl) rfl fun hplace => nomatch hplace
  | unverified sendId hmain =>
    exact h.turned rfl rfl (by rw [hmain]; rfl) rfl fun hplace => nomatch hplace

theorem place_dispatches (h : DispatchesNamed d) {k : String} {t : Thread}
    (ht : d.threads.lookup k = some t) (next : Option Progress) :
    DispatchesNamed (d.place k next) := by
  have hother : ∀ j, spawningTurn d.main = some j → j ≠ k := by
    rintro j hj rfl
    rw [h.fresh j hj] at ht
    cases ht
  cases next with
  | some progress =>
    have hkeys : ∀ j, (d.threads.updateAt k (fun _ => true)
        (fun t => { t with toProgress := progress }) fun _ => id rfl).lookup j = none ↔
          d.threads.lookup j = none := by
      intro j
      by_cases hj : j = k
      · subst hj
        rw [Table.lookup_updateAt_self]
        simp
      · rw [Table.lookup_updateAt_ne _ _ _ _ _ _ hj]
    refine ⟨fun j => ?_, fun j hj => ?_, h.bound⟩
    · dsimp only [Dispatcher.place]
      rw [ne_eq, hkeys]
      exact h.named j
    · exact (hkeys j).mpr (h.fresh j hj)
  | none =>
    refine ⟨fun j => ?_, fun j hj => ?_, ?_⟩
    · dsimp only [Dispatcher.place]
      rw [mem_discarded, h.named, Table.lookup_delete]
      constructor
      · rintro ⟨hsome | hj, hjk⟩
        · left
          obtain ⟨t', ht'⟩ := Option.ne_none_iff_exists'.mp hsome
          rw [ht']
          simp [Table.lookup_key ht', hjk]
        · exact Or.inr hj
      · rintro (hsome | hj)
        · cases ht' : d.threads.lookup j with
          | none =>
            rw [ht'] at hsome
            exact absurd rfl hsome
          | some t' =>
            rw [ht'] at hsome
            refine ⟨Or.inl (by simp), ?_⟩
            rintro rfl
            exact hsome (by simp [Table.lookup_key ht'])
        · exact ⟨Or.inr hj, hother j hj⟩
    · dsimp only [Dispatcher.place]
      rw [Table.lookup_delete, h.fresh j hj]
      rfl
    · have hbound := h.bound
      have hlength := discarded_length d.active k
      change (discarded d.active k).length + (if takesPlace d.main then 1 else 0) ≤ _
      omega

end Dispatches

section Recoveries

variable {pid : ℕ} {d d' : Dispatcher}

theorem lookup_staged (t : Recoveries) (k : String) (next : RecoveryStage) (j : String) :
    (t.updateAt k (fun _ => true) (fun v => { v with stage := next }) fun _ => id rfl).lookup j =
      (t.lookup j).map fun v => if j = k then { v with stage := next } else v := by
  by_cases hj : j = k
  · subst hj
    rw [Table.lookup_updateAt_self]
    simp
  · rw [Table.lookup_updateAt_ne _ _ _ _ _ _ hj]
    simp [hj]

theorem lookup_dropped (t : Recoveries) (k j : String) :
    (t.delete fun v => decide (v.sendId = k)).lookup j = if j = k then none else t.lookup j := by
  rw [Table.lookup_delete]
  cases hv : t.lookup j with
  | none => simp
  | some v =>
    have hkey : v.sendId = j := Table.lookup_key hv
    by_cases hj : j = k
    · simp [hkey, hj]
    · simp [hkey, hj]

/-- How a recovery may move on. -/
inductive RecoveryStep (d : Dispatcher) (v : Recovery) : RecoveryStage → Prop
  | refused (hstage : v.stage = .enter) (htaken : v.sendId ∈ d.recovering) :
      RecoveryStep d v .leave
  | entered (hstage : v.stage = .enter) (hfree : v.sendId ∉ d.recovering) :
      RecoveryStep d v .admission
  | working (next : RecoveryStage) (hstage : verifying v.stage = true) (hexit : v.stage ≠ .exit)
      (hnext : verifying next = true) : RecoveryStep d v next
  | left (hstage : v.stage = .exit) : RecoveryStep d v .leave
  | gone (hstage : v.stage = .leave) : RecoveryStep d v .leave

theorem resumeRecovery_step (p : Libraries) (w : World) (d : Dispatcher) (v : Recovery)
    (r : Reading) (granted : Bool) :
    RecoveryStep d v (resumeRecovery p w d v r granted) := by
  unfold resumeRecovery
  cases hstage : v.stage with
  | enter =>
    dsimp only
    split
    · exact RecoveryStep.refused hstage ‹_›
    · exact RecoveryStep.entered hstage ‹_›
  | exit => exact RecoveryStep.left hstage
  | leave => exact RecoveryStep.gone hstage
  | _ =>
    refine RecoveryStep.working _ (by rw [hstage]; rfl) (by rw [hstage]; simp) ?_
    dsimp only
    repeat' split
    all_goals rfl

theorem moveRecovery_step (p : Libraries) (w : World) (d : Dispatcher) (v : Recovery)
    (r : Reading) (granted : Bool) : RecoveryStep d v (moveRecovery p w d v r granted) := by
  unfold moveRecovery
  split
  · rename_i stage hstage
    have hnext := (Option.filter_eq_some_iff.mp hstage).1
    unfold interruptedRecovery at hnext
    cases hv : v.stage <;> rw [hv] at hnext
    all_goals first
      | (cases hnext; done)
      | (obtain rfl := Option.some.inj hnext
         exact RecoveryStep.working _ (by rw [hv]; rfl) (by rw [hv]; simp) rfl)
  · exact resumeRecovery_step p w d v r granted

/-- A move beside the scheduled recoveries keeps their names. -/
theorem ScheduledNamed.of_eq (h : ScheduledNamed d)
    (hset : d'.recoveryScheduled = d.recoveryScheduled) (hscheduled : d'.scheduled = d.scheduled)
    (hmain : spawningChat d'.main = spawningChat d.main) : ScheduledNamed d' where
  named k := by
    rw [hset, hscheduled, hmain]
    exact h.named k
  fresh k hk := by
    rw [hscheduled]
    exact h.fresh k (by rw [← hmain]; exact hk)
  bound := by
    rw [hset]
    exact h.bound

theorem step_scheduledNamed (h : ScheduledNamed d) (hstep : MainStep pid d d') :
    ScheduledNamed d' := by
  cases hstep with
  | turned main hturn hchat hturn' hchat' hplace =>
    exact h.of_eq rfl rfl (by rw [hchat, hchat'])
  | admitted left selected turn hmain hfree =>
    refine h.of_eq rfl rfl ?_
    cases hd : d.main <;> rw [hd] at hmain <;> first | rfl | cases hmain
  | started left selected turn hmain => exact h.of_eq rfl rfl (by rw [hmain]; rfl)
  | unstarted left selected turn main hmain hnext =>
    refine h.of_eq rfl rfl ?_
    rw [hmain]
    rcases hnext with rfl | rfl <;> rfl
  | scheduled sendId cursor hmain hnone =>
    have hempty : ∀ k, d.scheduled.lookup k = none := by
      intro k
      by_contra hsome
      have hmem := (h.named k).mpr (Or.inl hsome)
      rw [hnone] at hmem
      cases hmem
    refine ⟨fun k => ?_, fun k _ => hempty k, ?_⟩
    · simp [hnone, hempty, spawningChat, eq_comm]
    · simpa [hnone] using added_length [] sendId
  | verified sendId hmain =>
    have hnone : d.scheduled.lookup sendId = none := h.fresh _ (by rw [hmain]; rfl)
    refine ⟨fun k => ?_, fun k hk => (by cases hk), h.bound⟩
    have hnamed := h.named k
    have hinsert := lookup_insertNew_iff d.scheduled ⟨sendId, .enter⟩ hnone k
    rw [hmain] at hnamed
    simp only [spawningChat, Option.some.injEq] at hnamed
    dsimp only
    rw [hnamed, hinsert]
    simp [spawningChat]
  | unverified sendId hmain =>
    have hnone : d.scheduled.lookup sendId = none := h.fresh _ (by rw [hmain]; rfl)
    refine ⟨fun k => ?_, fun k hk => (by cases hk), ?_⟩
    · have hnamed := h.named k
      rw [hmain] at hnamed
      simp only [spawningChat, Option.some.injEq, mem_discarded] at hnamed ⊢
      rw [hnamed]
      constructor
      · rintro ⟨hsome | rfl, hk⟩
        · exact Or.inl hsome
        · exact absurd rfl hk
      · rintro (hsome | hk)
        · refine ⟨Or.inl hsome, ?_⟩
          rintro rfl
          exact hsome hnone
        · cases hk
    · exact (discarded_length _ _).trans h.bound

theorem placeScheduled_named {v : Recovery} {next : RecoveryStage} (h : ScheduledNamed d)
    (hv : d.scheduled.lookup v.sendId = some v) :
    ScheduledNamed (d.placeScheduled v next) := by
  have hstaged : ∀ d' : Dispatcher, d'.recoveryScheduled = d.recoveryScheduled →
      d'.scheduled = (d.scheduled.updateAt v.sendId (fun _ => true)
        (fun v => { v with stage := next }) fun _ => id rfl) → d'.main = d.main →
          ScheduledNamed d' := by
    intro d' hset hscheduled hmain
    refine ⟨fun k => ?_, fun k hk => ?_, by rw [hset]; exact h.bound⟩
    · rw [hset, hscheduled, hmain, h.named, lookup_staged]
      simp
    · rw [hscheduled, lookup_staged, h.fresh k (by rw [← hmain]; exact hk)]
      rfl
  unfold Dispatcher.placeScheduled
  cases hstage : v.stage with
  | enter =>
    dsimp only
    split
    · exact hstaged _ rfl rfl rfl
    · exact hstaged _ rfl rfl rfl
  | exit => exact hstaged _ rfl rfl rfl
  | leave =>
    dsimp only
    refine ⟨fun k => ?_, fun k hk => ?_, ?_⟩
    · rw [mem_discarded, h.named, lookup_dropped]
      constructor
      · rintro ⟨hsome | hk, hne⟩
        · rw [if_neg hne]
          exact Or.inl hsome
        · exact Or.inr hk
      · rintro (hsome | hk)
        · by_cases hne : k = v.sendId
          · rw [if_pos hne] at hsome
            exact absurd rfl hsome
          · rw [if_neg hne] at hsome
            exact ⟨Or.inl hsome, hne⟩
        · refine ⟨Or.inr hk, ?_⟩
          rintro rfl
          rw [h.fresh _ hk] at hv
          cases hv
    · rw [lookup_dropped, h.fresh k hk, ite_self]
    · exact (discarded_length _ _).trans h.bound
  | _ => exact hstaged _ rfl rfl rfl

theorem RecoveriesNamed.of_eq (h : RecoveriesNamed d) (hset : d'.recovering = d.recovering)
    (hrequested : d'.requested = d.requested) (hscheduled : d'.scheduled = d.scheduled) :
    RecoveriesNamed d' where
  named k := by
    rw [hset, hrequested, hscheduled]
    exact h.named k
  requested k v hv := h.requested k v (by rw [← hrequested]; exact hv)
  apart k v hk hv :=
    h.apart k v (by rw [← hrequested]; exact hk) (by rw [← hscheduled]; exact hv)

theorem step_recoveriesNamed (h : RecoveriesNamed d) (hnamed : ScheduledNamed d)
    (hstep : MainStep pid d d') : RecoveriesNamed d' := by
  cases hstep with
  | verified sendId hmain =>
    have hnone : d.scheduled.lookup sendId = none := hnamed.fresh _ (by rw [hmain]; rfl)
    have hinsert : ∀ k v, (d.scheduled.insertNew ⟨sendId, .enter⟩).lookup k = some v →
        d.scheduled.lookup k = some v ∨ (k = sendId ∧ verifying v.stage = false) := by
      intro k v hv
      by_cases hk : k = sendId
      · subst hk
        have hself := Table.lookup_insertNew_self (r := (⟨k, .enter⟩ : Recovery)) hnone
        obtain rfl := Option.some.inj (hself.symm.trans hv)
        exact Or.inr ⟨rfl, rfl⟩
      · exact Or.inl ((Table.lookup_insertNew_ne d.scheduled ⟨sendId, .enter⟩ hk).symm.trans hv)
    refine ⟨fun k => ?_, h.requested, fun k v hk hv => ?_⟩
    · dsimp only
      rw [h.named]
      refine or_congr_right ?_
      constructor
      · rintro ⟨v, hv, hverifying⟩
        refine ⟨v, ?_, hverifying⟩
        have hk : k ≠ sendId := by
          rintro rfl
          rw [hnone] at hv
          cases hv
        exact (Table.lookup_insertNew_ne d.scheduled ⟨sendId, .enter⟩ hk).trans hv
      · rintro ⟨v, hv, hverifying⟩
        rcases hinsert k v hv with hold | ⟨-, hfalse⟩
        · exact ⟨v, hold, hverifying⟩
        · rw [hfalse] at hverifying
          cases hverifying
    · rcases hinsert k v hv with hold | ⟨-, hfalse⟩
      · exact h.apart k v hk hold
      · exact hfalse
  | _ => exact h.of_eq rfl rfl rfl

theorem request_recoveriesNamed (h : RecoveriesNamed d) (sendId : String) :
    RecoveriesNamed (d.request sendId) := by
  unfold Dispatcher.request
  split
  · exact h
  · rename_i hfree
    rw [h.named, not_or, not_not] at hfree
    obtain ⟨hnone, hquiet⟩ := hfree
    have hinsert := lookup_insertNew_iff d.requested ⟨sendId, .admission⟩ hnone
    refine ⟨fun k => ?_, fun k v hv => ?_, fun k v hk hv => ?_⟩
    · dsimp only
      rw [mem_added, h.named, hinsert]
      constructor
      · rintro ((hk | hk) | rfl)
        · exact Or.inl (Or.inl hk)
        · exact Or.inr hk
        · exact Or.inl (Or.inr rfl)
      · rintro ((hk | hk) | hk)
        · exact Or.inl (Or.inl hk)
        · exact Or.inr hk.symm
        · exact Or.inl (Or.inr hk)
    · by_cases hk : k = sendId
      · subst hk
        have hself := Table.lookup_insertNew_self (r := (⟨k, .admission⟩ : Recovery)) hnone
        obtain rfl := Option.some.inj (hself.symm.trans hv)
        rfl
      · exact h.requested k v
          ((Table.lookup_insertNew_ne d.requested ⟨sendId, .admission⟩ hk).symm.trans hv)
    · rcases (hinsert k).mp hk with hold | rfl
      · exact h.apart k v hold hv
      · by_contra hverifying
        exact hquiet ⟨v, hv, by simpa using hverifying⟩

/-- A move of a requested recovery. -/
theorem placeRequested_recoveriesNamed {v : Recovery} {next : RecoveryStage}
    (h : RecoveriesNamed d) (hv : d.requested.lookup v.sendId = some v)
    (hstep : RecoveryStep d v next) : RecoveriesNamed (d.placeRequested v next) := by
  have hverifying := h.requested _ _ hv
  unfold Dispatcher.placeRequested
  by_cases hexit : v.stage = .exit
  · rw [hexit]
    dsimp only
    have hquiet : ¬∃ u, d.scheduled.lookup v.sendId = some u ∧ verifying u.stage = true := by
      rintro ⟨u, hu, htrue⟩
      rw [h.apart v.sendId u (by rw [hv]; simp) hu] at htrue
      cases htrue
    refine ⟨fun k => ?_, fun k u hu => ?_, fun k u hk hu => ?_⟩
    · dsimp only
      rw [mem_discarded, h.named, lookup_dropped]
      by_cases hk : k = v.sendId
      · subst hk
        simp [hquiet]
      · simp [hk]
    · dsimp only at hu
      rw [lookup_dropped] at hu
      split at hu
      · cases hu
      · exact h.requested k u hu
    · dsimp only at hk
      rw [lookup_dropped] at hk
      split at hk
      · exact absurd rfl hk
      · exact h.apart k u hk hu
  · have hnext : verifying next = true := by
      cases hstep with
      | refused hstage =>
        rw [hstage] at hverifying
        cases hverifying
      | entered => rfl
      | working _ _ _ hnext => exact hnext
      | left hstage => exact absurd hstage hexit
      | gone hstage =>
        rw [hstage] at hverifying
        cases hverifying
    have hstaged : RecoveriesNamed { d with
        requested := d.requested.updateAt v.sendId (fun _ => true)
          (fun v => { v with stage := next }) fun _ => id rfl } := by
      refine ⟨fun k => ?_, fun k u hu => ?_, fun k u hk hu => ?_⟩
      · dsimp only
        rw [h.named, lookup_staged]
        simp
      · dsimp only at hu
        rw [lookup_staged] at hu
        obtain ⟨u₀, hu₀, rfl⟩ := Option.map_eq_some_iff.mp hu
        split
        · exact hnext
        · exact h.requested k u₀ hu₀
      · dsimp only at hk
        rw [lookup_staged] at hk
        exact h.apart k u (by simpa using hk) hu
    cases hstage : v.stage <;> first | exact absurd hstage hexit | exact hstaged

/-- The scheduled recoveries after one of them was staged. -/
theorem staged_iff {v : Recovery} (hv : d.scheduled.lookup v.sendId = some v)
    (next : RecoveryStage) (k : String) (u : Recovery) :
    (d.scheduled.updateAt v.sendId (fun _ => true) (fun v => { v with stage := next })
        fun _ => id rfl).lookup k = some u ↔
      (k ≠ v.sendId ∧ d.scheduled.lookup k = some u) ∨
        (k = v.sendId ∧ u = { v with stage := next }) := by
  rw [lookup_staged]
  by_cases hk : k = v.sendId
  · subst hk
    rw [hv]
    simp [eq_comm]
  · simp [hk]

/-- What verifies after one of the scheduled recoveries was staged. -/
theorem staged_verifying {v : Recovery} (hv : d.scheduled.lookup v.sendId = some v)
    (next : RecoveryStage) (k : String) :
    (∃ u, (d.scheduled.updateAt v.sendId (fun _ => true) (fun v => { v with stage := next })
        fun _ => id rfl).lookup k = some u ∧ verifying u.stage = true) ↔
      (k ≠ v.sendId ∧ ∃ u, d.scheduled.lookup k = some u ∧ verifying u.stage = true) ∨
        (k = v.sendId ∧ verifying next = true) := by
  constructor
  · rintro ⟨u, hu, hverifying⟩
    rcases (staged_iff hv next k u).mp hu with ⟨hk, hu⟩ | ⟨hk, rfl⟩
    · exact Or.inl ⟨hk, u, hu, hverifying⟩
    · exact Or.inr ⟨hk, hverifying⟩
  · rintro (⟨hk, u, hu, hverifying⟩ | ⟨hk, hverifying⟩)
    · exact ⟨u, (staged_iff hv next k u).mpr (Or.inl ⟨hk, hu⟩), hverifying⟩
    · exact ⟨_, (staged_iff hv next k _).mpr (Or.inr ⟨hk, rfl⟩), hverifying⟩

/-- `_recovering` changes by the chat of the staged recovery at most. -/
theorem RecoveriesNamed.staged {v : Recovery} {next : RecoveryStage} {recovering : List String}
    (h : RecoveriesNamed d) (hv : d.scheduled.lookup v.sendId = some v)
    (hothers : ∀ k, k ≠ v.sendId → (k ∈ recovering ↔ k ∈ d.recovering))
    (hself : v.sendId ∈ recovering ↔
      d.requested.lookup v.sendId ≠ none ∨ verifying next = true)
    (hapart : d.requested.lookup v.sendId ≠ none → verifying next = false) :
    RecoveriesNamed { d with
      recovering := recovering
      scheduled := d.scheduled.updateAt v.sendId (fun _ => true)
        (fun v => { v with stage := next }) fun _ => id rfl } := by
  refine ⟨fun k => ?_, h.requested, fun k u hk hu => ?_⟩
  · dsimp only
    rw [staged_verifying hv]
    by_cases hk : k = v.sendId
    · subst hk
      simp [hself]
    · simp [hk, hothers k hk, h.named]
  · dsimp only at hk hu
    rcases (staged_iff hv next k u).mp hu with ⟨-, hu⟩ | ⟨rfl, rfl⟩
    · exact h.apart k u hk hu
    · exact hapart hk

/-- A recovery that is over goes without having been at work. -/
theorem RecoveriesNamed.dropped {v : Recovery} (h : RecoveriesNamed d)
    (hv : d.scheduled.lookup v.sendId = some v) (hstage : v.stage = .leave)
    (recoveryScheduled : List String) :
    RecoveriesNamed { d with
      recoveryScheduled := recoveryScheduled
      scheduled := d.scheduled.delete fun other => decide (other.sendId = v.sendId) } := by
  refine ⟨fun k => ?_, h.requested, fun k u hk hu => ?_⟩
  · dsimp only
    rw [h.named, lookup_dropped]
    by_cases hk : k = v.sendId
    · subst hk
      simp [hv, hstage, verifying]
    · simp [hk]
  · dsimp only at hu
    rw [lookup_dropped] at hu
    split at hu
    · cases hu
    · exact h.apart k u hk hu

/-- A move of a scheduled recovery, which leaves its two sets at two moves. -/
theorem placeScheduled_recoveriesNamed {v : Recovery} {next : RecoveryStage}
    (h : RecoveriesNamed d) (hv : d.scheduled.lookup v.sendId = some v)
    (hstep : RecoveryStep d v next) : RecoveriesNamed (d.placeScheduled v next) := by
  have hrequested : verifying v.stage = true → ¬ d.requested.lookup v.sendId ≠ none := by
    intro hverifying hsome
    rw [h.apart v.sendId v hsome hv] at hverifying
    cases hverifying
  have hmem := h.named v.sendId
  simp only [hv, Option.some.injEq, exists_eq_left'] at hmem
  unfold Dispatcher.placeScheduled
  cases hstep with
  | refused hstage htaken =>
    rw [hstage] at hmem ⊢
    dsimp only
    rw [if_pos htaken]
    exact h.staged hv (fun _ _ => Iff.rfl) hmem fun _ => rfl
  | entered hstage hfree =>
    rw [hstage]
    dsimp only
    rw [if_neg hfree]
    refine h.staged hv (fun k hk => ?_) ?_ fun hsome => absurd (hmem.mpr (Or.inl hsome)) hfree
    · rw [mem_added]
      simp [hk]
    · rw [mem_added]
      simp [verifying]
  | working _ hstage hexit hnext =>
    have hkept : RecoveriesNamed { d with
        scheduled := d.scheduled.updateAt v.sendId (fun _ => true)
          (fun v => { v with stage := next }) fun _ => id rfl } :=
      h.staged hv (fun _ _ => Iff.rfl) (by rw [hmem, hstage, hnext])
        fun hsome => absurd hsome (hrequested hstage)
    cases hv' : v.stage <;> first
      | exact hkept
      | exact absurd hv' hexit
      | (rw [hv'] at hstage; cases hstage)
  | left hstage =>
    have hnone := hrequested (by rw [hstage]; rfl)
    rw [hstage]
    refine h.staged hv (fun k hk => ?_) ?_ fun _ => rfl
    · rw [mem_discarded]
      simp [hk]
    · rw [mem_discarded]
      simp [hnone, verifying]
  | gone hstage =>
    rw [hstage]
    exact h.dropped hv hstage _

end Recoveries

section Runs

variable {p : Libraries} {w : World}

/-- The sets of the process name its threads. -/
structure Named (d : Dispatcher) : Prop where
  dispatches : DispatchesNamed d
  scheduled : ScheduledNamed d
  recoveries : RecoveriesNamed d

theorem named_new : Named {} where
  dispatches := ⟨fun k => by simp [spawningTurn], fun k hk => (by cases hk), by decide⟩
  scheduled := ⟨fun k => by simp [spawningChat], fun k hk => (by cases hk), by decide⟩
  recoveries := ⟨fun k => by simp, fun k v hv => (by cases hv), fun k v _ hv => (by cases hv)⟩

theorem retryPreflight_key {lib : Stdlib} {s : Store} {k : String} {now : Time} {turn : ReplyRow}
    (h : (Service.step lib s ⟨.reply (.retryPreflight k), now⟩).2 = .turn (.ok turn)) :
    turn.replyId = k := by
  have h : (retryPreflight s.chats k now).2 = .ok turn := Output.turn.inj h
  unfold retryPreflight at h
  dsimp only at h
  split at h
  · rename_i row hrow
    obtain rfl := Except.ok.inj h
    exact Table.lookup_key hrow
  · cases h

theorem answersRetry (pid : ℕ) (r : Reading) :
    AnswersRetry (w.dispatchers pid) (answerOf p w (.main pid r)) := by
  intro left selected old turn hmain hfree hfailed hanswer
  have haction : mainAction (w.dispatchers pid) r =
      some (.reply (.retryPreflight old.replyId)) := by
    simp [mainAction, hmain, hfree, hfailed]
  unfold answerOf at hanswer
  cases hfails : r.storeFails with
  | true =>
    simp only [storeCall, attempted, hfails, if_true] at hanswer
    cases hanswer
  | false =>
    simp only [storeCall, attempted, hfails, haction, Option.map_some, Bool.false_eq_true,
      if_false] at hanswer
    exact @retryPreflight_key p.lib _ _ _ _ hanswer

theorem step_named (hw : ∀ pid, Named (w.dispatchers pid)) (m : Move) (pid : ℕ) :
    Named ((step p w m).1.dispatchers pid) := by
  change Named (moved p w (answerOf p w m) (grantedTo w m) m pid)
  have hother : ∀ {q : ℕ} {d : Dispatcher}, Named d → Named (Function.update w.dispatchers q d pid)
      := by
    intro q d hd
    by_cases hq : pid = q
    · subst hq
      rwa [Function.update_self]
    · rw [Function.update_of_ne hq]
      exact hw pid
  cases m with
  | service call => exact hw pid
  | reads call => exact hw pid
  | main q r =>
    obtain ⟨hdispatches, hscheduled, hrecoveries⟩ := hw q
    have hstep : MainStep q (w.dispatchers q) (moveMain w q (w.dispatchers q) r _) :=
      moveMain_step (answersRetry (p := p) q r)
    exact hother ⟨step_dispatches hdispatches hstep, step_scheduledNamed hscheduled hstep,
      step_recoveriesNamed hrecoveries hscheduled hstep⟩
  | dispatch q k r =>
    obtain ⟨hdispatches, hscheduled, hrecoveries⟩ := hw q
    dsimp only [moved]
    cases ht : (w.dispatchers q).threads.lookup k with
    | none => exact hw pid
    | some t =>
      refine hother ⟨place_dispatches hdispatches ht _, ?_, ?_⟩
      · exact hscheduled.of_eq (by unfold Dispatcher.place; split <;> rfl)
          (by unfold Dispatcher.place; split <;> rfl) (by rw [place_main])
      · exact hrecoveries.of_eq (by unfold Dispatcher.place; split <;> rfl)
          (by unfold Dispatcher.place; split <;> rfl) (by unfold Dispatcher.place; split <;> rfl)
  | request q k =>
    obtain ⟨hdispatches, hscheduled, hrecoveries⟩ := hw q
    refine hother ⟨?_, ?_, request_recoveriesNamed hrecoveries k⟩
    · exact hdispatches.of_eq (by unfold Dispatcher.request; split <;> rfl)
        (request_threads _ _) (request_main _ _)
    · exact hscheduled.of_eq (by unfold Dispatcher.request; split <;> rfl)
        (by unfold Dispatcher.request; split <;> rfl) (by rw [request_main])
  | requested q k r =>
    obtain ⟨hdispatches, hscheduled, hrecoveries⟩ := hw q
    dsimp only [moved]
    cases hv : (w.dispatchers q).requested.lookup k with
    | none => exact hw pid
    | some v =>
      obtain rfl : v.sendId = k := Table.lookup_key hv
      refine hother ⟨?_, ?_, placeRequested_recoveriesNamed hrecoveries hv
        (moveRecovery_step p w _ v r _)⟩
      · exact hdispatches.of_eq (by unfold Dispatcher.placeRequested; split <;> rfl)
          (placeRequested_threads _ _ _) (placeRequested_main _ _ _)
      · exact hscheduled.of_eq (by unfold Dispatcher.placeRequested; split <;> rfl)
          (by unfold Dispatcher.placeRequested; split <;> rfl) (by rw [placeRequested_main])
  | scheduled q k r =>
    obtain ⟨hdispatches, hscheduled, hrecoveries⟩ := hw q
    dsimp only [moved]
    cases hv : (w.dispatchers q).scheduled.lookup k with
    | none => exact hw pid
    | some v =>
      obtain rfl : v.sendId = k := Table.lookup_key hv
      refine hother ⟨?_, placeScheduled_named hscheduled hv,
        placeScheduled_recoveriesNamed hrecoveries hv (moveRecovery_step p w _ v r _)⟩
      refine hdispatches.of_eq ?_ (placeScheduled_threads _ _ _) (placeScheduled_main _ _ _)
      unfold Dispatcher.placeScheduled
      dsimp only
      repeat' split
      all_goals rfl
  | kill q => exact hother named_new

def reached (p : Libraries) (s : Store) (a : Attempts) (run : List Move) : World :=
  final (step p) (start s a) run

theorem reached_named (s : Store) (a : Attempts) (run : List Move) (pid : ℕ) :
    Named ((reached p s a run).dispatchers pid) := by
  have hall : ∀ pid, Named ((reached p s a run).dispatchers pid) := by
    refine final_invariant (step p) (fun _ => True) (fun w => ∀ pid, Named (w.dispatchers pid)) ?_
      (start s a) (fun _ => named_new) run fun _ _ => trivial
    intro w m _ hw
    exact step_named hw m
  exact hall pid

/-- A table whose keys are all among the names has no more rows than there are names. -/
theorem rows_le {α : Type} {key : α → String} {t : Table α String key} {names : List String}
    (h : ∀ k, t.lookup k ≠ none → k ∈ names) : t.rows.length ≤ names.length := by
  have hsub : t.rows.map key ⊆ names := by
    intro k hk
    obtain ⟨r, hr, rfl⟩ := List.mem_map.mp hk
    exact h _ (by rw [Table.lookup_of_mem hr]; simp)
  have hlength := (List.subperm_of_subset t.nodup hsub).length_le
  rwa [List.length_map] at hlength

theorem Named.threads_le {d : Dispatcher} (h : Named d) :
    d.threads.rows.length ≤ d.active.length :=
  rows_le fun k hk => (h.dispatches.named k).mpr (Or.inl hk)

theorem Named.scheduled_le {d : Dispatcher} (h : Named d) :
    d.scheduled.rows.length ≤ d.recoveryScheduled.length :=
  rows_le fun k hk => (h.scheduled.named k).mpr (Or.inl hk)

theorem Named.requested_le {d : Dispatcher} (h : Named d) :
    d.requested.rows.length ≤ d.recovering.length :=
  rows_le fun k hk => (h.recoveries.named k).mpr (Or.inl hk)

theorem sets_empty {d : Dispatcher} (h : inflightCount d = 0) :
    d.active = [] ∧ d.recovering = [] ∧ d.recoveryScheduled = [] := by
  unfold inflightCount at h
  rw [List.length_eq_zero_iff, List.dedup_eq_nil, List.append_eq_nil_iff,
    List.append_eq_nil_iff] at h
  exact ⟨h.1.1, h.1.2, h.2⟩

theorem Named.none_left {d : Dispatcher} (h : Named d) (hnone : inflightCount d = 0) :
    d.threads.rows = [] ∧ d.requested.rows = [] ∧ d.scheduled.rows = [] := by
  obtain ⟨hactive, hrecovering, hrest⟩ := sets_empty hnone
  have hthreads := h.threads_le
  have hrequested := h.requested_le
  have hscheduled := h.scheduled_le
  rw [hactive, List.length_nil, Nat.le_zero, List.length_eq_zero_iff] at hthreads
  rw [hrecovering, List.length_nil, Nat.le_zero, List.length_eq_zero_iff] at hrequested
  rw [hrest, List.length_nil, Nat.le_zero, List.length_eq_zero_iff] at hscheduled
  exact ⟨hthreads, hrequested, hscheduled⟩

/-- In every run, for every process: at most two threads dispatch replies, at most one verifies
a queued chat, a chat is verified by at most one thread, and with nothing in flight no thread
is left. -/
theorem few_threads (p : Libraries) (s : Store) (a : Attempts) (run : List Move) (pid : ℕ) :
    ((reached p s a run).dispatchers pid).threads.rows.length ≤ 2 ∧
      ((reached p s a run).dispatchers pid).scheduled.rows.length ≤ 1 ∧
      (∀ k v, ((reached p s a run).dispatchers pid).requested.lookup k ≠ none →
        ((reached p s a run).dispatchers pid).scheduled.lookup k = some v →
          verifying v.stage = false) ∧
      (inflightCount ((reached p s a run).dispatchers pid) = 0 →
        ((reached p s a run).dispatchers pid).threads.rows = [] ∧
          ((reached p s a run).dispatchers pid).requested.rows = [] ∧
            ((reached p s a run).dispatchers pid).scheduled.rows = []) := by
  have hnamed := reached_named (p := p) s a run pid
  have hthreads := hnamed.threads_le
  have hscheduled := hnamed.scheduled_le
  have hplaces : _ ≤ 2 := hnamed.dispatches.bound
  have hone := hnamed.scheduled.bound
  exact ⟨by omega, by omega, hnamed.recoveries.apart, hnamed.none_left⟩

/-- The lease of the reply was lost in the run: the last write of its thread raised. -/
def LostIn (p : Libraries) (s : Store) (a : Attempts) (run : List Move) (pid : ℕ)
    (k owner : String) : Prop :=
  ∃ e ∈ events (step p) (start s a) run, LosesLease pid e.pre e.input k owner

end Runs

/-- The follow-up is dispatched, and its answer read from the page. -/
def answeredDispatch : List Move :=
  oneDispatch ++ List.replicate 11 (.dispatch 7 "reply-1"
    { inOrder with
      confirmed := true
      probeDue := true
      proof := some { verified := true, complete := true, messageId := "m-2",
                      text := "done".toList } })

theorem answeredDispatch_undisturbed :
    Meets (step plainLibraries) (Undisturbed 7) (start waitingStore Table.empty)
      answeredDispatch := by
  rw [meets_iff_events]
  intro e he
  have hmem := event_input _ _ _ e he
  simp only [answeredDispatch, oneDispatch, List.mem_append, List.mem_replicate] at hmem
  rcases hmem with (⟨-, hmove⟩ | ⟨-, hmove⟩) | ⟨-, hmove⟩ <;> rw [hmove] <;>
    exact ⟨by simp, by simp⟩

theorem waitingStore_unleased (row : ReplyRow) (h : row ∈ waitingStore.chats.replies.rows)
    (hactive : activeReply row.status = true) : ¬OwnedBy 7 row.leaseOwner := by
  obtain rfl := List.mem_singleton.mp h
  cases hactive

theorem answeredDispatch_drained :
    inflightCount ((reached plainLibraries waitingStore Table.empty answeredDispatch).dispatchers
      7) = 0 := by
  decide +kernel

example : (reached plainLibraries waitingStore Table.empty
    answeredDispatch).store.chats.replies.rows.map ReplyRow.status = [.completed] := by
  decide +kernel

/-- The renewal of the lease raises, and so do both writes after it. -/
def lockedDispatch : List Move :=
  oneDispatch ++ List.replicate 2 (.dispatch 7 "reply-1" { inOrder with confirmed := true }) ++
    .dispatch 7 "reply-1" { inOrder with raises := true } ::
      List.replicate 3 (.dispatch 7 "reply-1" { inOrder with storeFails := true })

example : inflightCount ((reached plainLibraries waitingStore Table.empty
    lockedDispatch).dispatchers 7) = 0 := by
  decide +kernel

example : (reached plainLibraries waitingStore Table.empty
    lockedDispatch).store.chats.replies.rows.map ReplyRow.leaseOwner = ["7:a"] := by
  decide +kernel

end Prompta.DrainedWorkers
