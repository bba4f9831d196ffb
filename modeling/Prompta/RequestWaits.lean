import Prompta.FairTurns
import Prompta.RecoveryTurns

/-!
Requested turns under the recovery worker. The requests whose turns may be read form a waiting
room with the counts of their reads, and a background turn that nothing holds back serves one
with the least count. So a request waits for a bounded number of turns, and it is dropped only
when its turn is over or its chat is stopped.
-/
namespace Prompta.RequestWaits

open Texts Schema DisplayBlocks Runs FairTurns
open RecoveryAttempts hiding step Call
open HistoryRecovery RecoveryTurns

def pendingTargets (c : Chats) : List String := c.recoveryRequests.map RecoveryRequest.targetId

theorem mem_pendingRequests {c : Chats} {target : String} :
    target ∈ pendingManualRecoveryRequests c ↔ target ∈ pendingTargets c := by
  unfold pendingManualRecoveryRequests pendingTargets
  exact ((List.perm_insertionSort requestOrder c.recoveryRequests).map _).mem_iff

/-- The requests whose turns may be read now, with the counts of their reads. -/
def waiting (s : RecoveryState) : Waiting String where
  members := ((pendingTargets s.chats).filter fun target =>
    (requestedTurn s target).isSome).toFinset
  count := attemptCount s.attempts

theorem mem_waiting {s : RecoveryState} {target : String} :
    target ∈ (waiting s).members ↔
      target ∈ pendingTargets s.chats ∧ ∃ c, requestedTurn s target = some c := by
  simp [waiting, Option.isSome_iff_exists]

theorem waiting_name {s : RecoveryState} {target : String} (h : target ∈ (waiting s).members)
    (hnames : NoSentinels s.chats.results) : isSentinel target = false := by
  obtain ⟨_, c, hc⟩ := mem_waiting.mp h
  rw [← (requestedTurn_target hc).1]
  exact fromRow_name (fromRow_requested hc) hnames

/-- No step takes back a counted read. -/
theorem counts_grow (lib : Stdlib) (s : RecoveryState) (call : RecoveryCall)
    (hnames : NoSentinels s.chats.results) {target : String} (hname : isSentinel target = false) :
    attemptCount s.attempts target ≤ attemptCount (step lib s call).1.attempts target := by
  obtain ⟨writes, _, hwrites⟩ := step_writes lib s call hnames
  rw [hwrites, attempts_counted _ _ hname]
  exact Nat.le_add_right _ _

/-- The request served by a background turn. -/
def servedOf (e : Event RecoveryState RecoveryCall Output) : Option String :=
  match e.input, e.output with
  | .turn call, .turned result =>
    if call.background && decide (call.preferredSendId = none) then
      result.read.map Candidate.target
    else none
  | _, _ => none

/-- A background turn that nothing holds back. -/
def isFreeTurn (e : Event RecoveryState RecoveryCall Output) : Bool :=
  match e.input with
  | .turn call =>
    call.background && decide (call.preferredSendId = none) && !heldBack e.pre.attempts call
  | _ => false

/-- While some request may be read, a background turn chooses one that was read least often. -/
theorem background_choice {s : RecoveryState} {call : TurnCall} {x : String}
    (hx : x ∈ (waiting s).members) (hbackground : call.background = true)
    (hpreferred : call.preferredSendId = none) :
    ∃ c, choice s call = some (c, true) ∧ (waiting s).IsNext c.target := by
  obtain ⟨hpending, d, hd⟩ := mem_waiting.mp hx
  have hrequests : turnRequests s call = pendingManualRecoveryRequests s.chats := by
    rw [turnRequests, if_pos hpreferred]
  have hin : x ∈ turnRequests s call := by
    rw [hrequests]
    exact mem_pendingRequests.mpr hpending
  obtain ⟨c, hc⟩ := nextRequested_isSome hin hd
  refine ⟨c, ?_, ?_⟩
  · have hslot : (some c).filter (manualSlot (choosing s call).attempts call.background) =
        some c := by simp [manualSlot, hbackground]
    unfold choice chosen
    rw [hc, hslot]
  · obtain ⟨target, htarget, hturn⟩ := nextRequested_mem hc
    obtain ⟨hname, hcount⟩ := requestedTurn_target hturn
    rw [hrequests] at htarget
    refine ⟨?_, ?_⟩
    · rw [hname]
      exact mem_waiting.mpr ⟨mem_pendingRequests.mp htarget, c, hturn⟩
    · intro m hm
      obtain ⟨hpendingm, e, he⟩ := mem_waiting.mp hm
      have hinm : m ∈ turnRequests s call := by
        rw [hrequests]
        exact mem_pendingRequests.mpr hpendingm
      have hleast := nextRequested_least hc hinm he
      rw [hcount, (requestedTurn_target he).2] at hleast
      rw [hname]
      exact hleast

theorem paceOpen_of_free {t : Attempts} {call : TurnCall} (h : heldBack t call = false) :
    PaceOpen t call.now := by
  intro row hrow
  simp only [heldBack, Bool.or_eq_false_iff, decide_eq_false_iff_not, not_lt] at h
  have hover := h.2
  rw [historyRecoveryGlobalPaceRemaining, hrow] at hover
  have hend := (max_le_iff.mp hover).2
  simp only [Option.elim_some] at hend
  linarith

/-- While some request may be read, every free background turn reads one. -/
theorem free_turn_serves (lib : Stdlib) (s : RecoveryState) (call : RecoveryCall) {x : String}
    (hx : x ∈ (waiting s).members) :
    (servedOf ⟨s, call, (step lib s call).2, (step lib s call).1⟩).isSome =
      isFreeTurn ⟨s, call, (step lib s call).2, (step lib s call).1⟩ := by
  cases call with
  | turn call =>
    by_cases hkind : (call.background && decide (call.preferredSendId = none)) = true
    · simp only [servedOf, isFreeTurn, step, hkind, if_true, Bool.true_and, Option.isSome_map]
      obtain ⟨hbackground, hpreferred⟩ := Bool.and_eq_true_iff.mp hkind
      obtain ⟨c, hchoice, _⟩ := background_choice hx hbackground (by simpa using hpreferred)
      have hstep := turn_steps lib s call
      generalize recoverOnce lib s call = result at hstep
      cases hstep with
      | heldBack h => simp [h]
      | nothing hfree h =>
        have hrefused := h c true hchoice
        have hgranted := (reserve_granted_iff s.attempts call.now
          (slotKind true).interval).mpr (paceOpen_of_free hfree)
        exact absurd (hgranted.symm.trans hrefused) (by simp)
      | read c' manual result hfree hchoice' hslot hend =>
        have hread : result.read = some c' := ended_read hend
        simp [hread, hfree]
    · simp [servedOf, isFreeTurn, step, hkind]
  | reserve kind now => rfl
  | request sendId targets now => rfl
  | stop sendId now => rfl
  | others results replies pins => rfl

/-- A request is served by a background turn that reads its page. -/
theorem servedOf_some {lib : Stdlib} {s : RecoveryState} {call : RecoveryCall} {o : String}
    (h : servedOf ⟨s, call, (step lib s call).2, (step lib s call).1⟩ = some o) :
    ∃ turn c, call = .turn turn ∧ turn.background = true ∧ turn.preferredSendId = none ∧
      (recoverOnce lib s turn).read = some c ∧ c.target = o := by
  cases call with
  | turn turn =>
    simp only [servedOf, step] at h
    split at h
    · rename_i hkind
      obtain ⟨hbackground, hpreferred⟩ := Bool.and_eq_true_iff.mp hkind
      obtain ⟨c, hread, hname⟩ := Option.map_eq_some_iff.mp h
      exact ⟨turn, c, rfl, hbackground, by simpa using hpreferred, hread, hname⟩
    · cases h
  | reserve kind now => cases h
  | request sendId targets now => cases h
  | stop sendId now => cases h
  | others results replies pins => cases h

/-- The writes of a turn that has read a page. -/
theorem read_choice {lib : Stdlib} {s : RecoveryState} {call : TurnCall} {c : Candidate}
    (h : (recoverOnce lib s call).read = some c) :
    ∃ manual, choice s call = some (c, manual) ∧
      (recoverOnce lib s call).state.attempts = final RecoveryAttempts.step s.attempts
        (turnWrites s.attempts call c manual (recoverOnce lib s call).recovered) := by
  rcases turn_attempts lib s call with ⟨hnone, _, _⟩ | ⟨d, manual, hread, _, _, hchoice, _, hwrites⟩
  · rw [hnone] at h
    cases h
  · obtain rfl : c = d := Option.some.inj (h.symm.trans hread)
    exact ⟨manual, hchoice, hwrites⟩

/-- A turn that has to be tried again counts its read. -/
theorem attempts_lt_of_again {lib : Stdlib} {s : RecoveryState} {call : TurnCall} {c : Candidate}
    {manual : Bool} (hname : isSentinel c.target = false)
    (hagain : (recoverOnce lib s call).recovered = false)
    (hwrites : (recoverOnce lib s call).state.attempts = final RecoveryAttempts.step s.attempts
      (turnWrites s.attempts call c manual (recoverOnce lib s call).recovered)) :
    attemptCount s.attempts c.target <
      attemptCount (recoverOnce lib s call).state.attempts c.target := by
  rw [hwrites, attempts_counted _ _ hname, hagain]
  have hcounted :
      0 < (turnWrites s.attempts call c manual false).countP (isAttemptOf c.target) := by
    rw [List.countP_pos_iff]
    refine ⟨⟨call.now, .attempt c.target⟩, ?_, by simp [isAttemptOf]⟩
    simp [turnWrites]
  omega

/-- The requests that are left after a turn that was over for good. -/
theorem cleared_requests {lib : Stdlib} {s : RecoveryState} {call : TurnCall} {c : Candidate}
    (hchoice : choice s call = some (c, true))
    (hread : (recoverOnce lib s call).read = some c)
    (hover : (recoverOnce lib s call).recovered = true) :
    c.target ∉ pendingTargets (recoverOnce lib s call).state.chats := by
  have hstep := turn_steps lib s call
  generalize recoverOnce lib s call = result at hstep hread hover
  cases hstep with
  | heldBack h => cases hover
  | nothing hfree h => cases hover
  | read c' manual result hfree hchoice' hslot hend =>
    obtain ⟨rfl, rfl⟩ := Prod.mk.inj (Option.some.inj (hchoice.symm.trans hchoice'))
    cases hend with
    | again after report hchats hattempts => cases hover
    | recovered read report hquiet hdone =>
      have htarget : manualTargetOf (choosing s call).chats (turnRequests s call) c true call =
          some c.target := by simp [manualTargetOf]
      dsimp only [overState]
      rw [htarget]
      simp [pendingTargets, clearTarget, clearManualRecoveryRequest]

/-- Each call is a turn of the waiting room, while some member waits in it. -/
theorem waiting_turn (lib : Stdlib) (s : RecoveryState) (call : RecoveryCall)
    (hnames : NoSentinels s.chats.results) {x : String} (hx : x ∈ (waiting s).members) :
    Waiting.Turn (waiting s) (waiting (step lib s call).1)
      (servedOf ⟨s, call, (step lib s call).2, (step lib s call).1⟩) where
  grows m hm := counts_grow lib s call hnames (waiting_name hm hnames)
  next o hserved := by
    obtain ⟨turn, c, rfl, hbackground, hpreferred, hread, rfl⟩ := servedOf_some hserved
    obtain ⟨d, hchoice, hnext⟩ := background_choice hx hbackground hpreferred
    obtain ⟨manual, hchosen, _⟩ := read_choice hread
    obtain ⟨rfl, _⟩ := Prod.mk.inj (Option.some.inj (hchoice.symm.trans hchosen))
    exact hnext
  advances o hserved hstays := by
    obtain ⟨turn, c, rfl, hbackground, hpreferred, hread, rfl⟩ := servedOf_some hserved
    obtain ⟨d, hchoice, hnext⟩ := background_choice hx hbackground hpreferred
    obtain ⟨manual, hchosen, hwrites⟩ := read_choice hread
    obtain ⟨rfl, rfl⟩ := Prod.mk.inj (Option.some.inj (hchoice.symm.trans hchosen))
    cases hover : (recoverOnce lib s turn).recovered with
    | true => exact absurd (mem_waiting.mp hstays).1 (cleared_requests hchoice hread hover)
    | false => exact attempts_lt_of_again (waiting_name hnext.1 hnames) hover hwrites

/-- The request is pending and its turn may be read, and no read of the turn is counted. -/
def WaitsThrough (x : String) (e : Event RecoveryState RecoveryCall Output) : Prop :=
  Waiting.Waits (waiting e.pre) (waiting e.post) x

def freeTurns (lib : Stdlib) (s : RecoveryState) (run : List RecoveryCall) : ℕ :=
  (events (step lib) s run).countP isFreeTurn

/-- The requests that become readable in a run. -/
def arrivals (lib : Stdlib) (s : RecoveryState) (run : List RecoveryCall) : ℕ :=
  arrivalsOf (step lib) waiting s run

/-- Whatever happens beside the recovery worker, a readable request waits for at most one turn
for each earlier read that another request lacks, and one more for each; requests that become
readable meanwhile add as many as an unread request would. -/
theorem requests_wait (lib : Stdlib) (s : RecoveryState) (run : List RecoveryCall)
    (hnames : NoSentinels s.chats.results) (hrun : Meets (step lib) KeepsNames s run) (x : String)
    (hwaits : ∀ e ∈ events (step lib) s run, WaitsThrough x e) :
    freeTurns lib s run ≤
        (waiting s).ahead x + arrivals lib s run * (attemptCount s.attempts x + 1) ∧
      (waiting s).ahead x ≤
        ((waiting s).members.erase x).card * (attemptCount s.attempts x + 1) := by
  refine ⟨?_, Waiting.ahead_le_card (waiting s) x⟩
  have hshape : ∀ e ∈ events (step lib) s run,
      (⟨e.pre, e.input, (step lib e.pre e.input).2, (step lib e.pre e.input).1⟩ :
        Event RecoveryState RecoveryCall Output) = e := by
    intro e he
    rw [event_step (step lib) s run e he]
  have hturn : ∀ e ∈ events (step lib) s run,
      Waiting.Turn (waiting e.pre) (waiting e.post) (servedOf e) := by
    intro e he
    have hstep := waiting_turn lib e.pre e.input (event_names hnames hrun e he) (hwaits e he).1
    rw [hshape e he] at hstep
    have hpost : (step lib e.pre e.input).1 = e.post := by rw [event_step (step lib) s run e he]
    rw [hpost] at hstep
    exact hstep
  have hbound := turns_bounded (step lib) waiting servedOf s run x hturn hwaits
  have hfree : freeTurns lib s run = turns (step lib) servedOf s run := by
    unfold freeTurns turns
    apply List.countP_congr
    intro e he
    have hserves := free_turn_serves lib e.pre e.input (hwaits e he).1
    rw [hshape e he] at hserves
    rw [hserves]
  have hcount : (waiting s).count x = attemptCount s.attempts x := rfl
  rw [hcount] at hbound
  unfold arrivals
  omega

theorem twoRequests_waits :
    ∀ e ∈ events (step Service.plainLib) twoRequests [failedTurn 0], WaitsThrough "run-2" e := by
  intro e he
  rw [List.mem_singleton.mp he]
  refine ⟨mem_waiting.mpr ⟨?_, ?_⟩, mem_waiting.mpr ⟨?_, ?_⟩, ?_⟩
  · decide +kernel
  · exact Option.isSome_iff_exists.mp (by decide +kernel)
  · decide +kernel
  · exact Option.isSome_iff_exists.mp (by decide +kernel)
  · decide +kernel

/-- The turn of the first request brings the second one to the front. -/
theorem requests_wait_failedTurn :
    freeTurns Service.plainLib twoRequests [failedTurn 0] ≤
        (waiting twoRequests).ahead "run-2" +
          arrivals Service.plainLib twoRequests [failedTurn 0] *
            (attemptCount twoRequests.attempts "run-2" + 1) ∧
      (waiting twoRequests).ahead "run-2" ≤
        ((waiting twoRequests).members.erase "run-2").card *
          (attemptCount twoRequests.attempts "run-2" + 1) :=
  requests_wait Service.plainLib twoRequests [failedTurn 0] twoRequests_named
    ⟨failedTurn_named _ 0, trivial⟩ "run-2" twoRequests_waits

example : freeTurns Service.plainLib twoRequests [failedTurn 0] = 1 := by decide +kernel

/-- Why a request is dropped: its turn is gone or ended, a read of it was over for good and its
row is completed, or its chat is stopped. -/
inductive Drops (e : Event RecoveryState RecoveryCall Output) (target : String) : Prop
  | ended (h : consumed e.pre target = true)
  | over (turn : TurnCall) (c : Candidate) (hread : readOf e = some (turn, c))
      (hname : c.target = target) (hdone : storedCompleted e.post.chats c = true)
  | stopped (r : RecoveryRequest) (hmem : r ∈ e.pre.chats.recoveryRequests)
      (hname : r.targetId = target) (hstop : ∃ now, e.input = .stop r.sendId now)

theorem addRequest_keeps (sendId : String) (now : Time) (targets : List String) (c : Chats)
    {target : String} (h : target ∈ pendingTargets c) :
    target ∈ pendingTargets (targets.foldl (addRequest sendId now) c) := by
  induction targets generalizing c with
  | nil => exact h
  | cons first rest ih =>
    apply ih
    unfold addRequest
    split
    · exact h
    · unfold pendingTargets at h ⊢
      rw [List.map_append]
      exact List.mem_append_left _ h

theorem deferred_targets (c : Chats) (now : Time) (deferred : Option String) :
    pendingTargets (deferTarget c now deferred) = pendingTargets c := by
  cases deferred with
  | none => rfl
  | some target =>
    unfold pendingTargets deferTarget deferManualRecoveryRequest
    rw [List.map_map]
    apply List.map_congr_left
    intro r _
    by_cases h : r.targetId = target <;> simp [h]

theorem mem_choosing {s : RecoveryState} (call : TurnCall) {target : String}
    (h : target ∈ pendingTargets s.chats) :
    consumed s target = true ∨ target ∈ pendingTargets (choosing s call).chats := by
  by_cases hdropped : target ∈ droppedBy s call
  · have hsel := (List.mem_filter.mp hdropped).2
    exact Or.inl (Bool.and_eq_true_iff.mp hsel).2
  · obtain ⟨r, hr, rfl⟩ := List.mem_map.mp h
    rw [choosing_eq]
    exact Or.inr (List.mem_map_of_mem (List.mem_filter.mpr ⟨hr, by simpa using hdropped⟩))

/-- A turn is over for good only when its row is completed. -/
theorem recordRead_completed {lib : Stdlib} {c : Chats} {candidate : Candidate} {now : Time}
    {result : Option HistoryRead} (h : (recordRead lib c candidate now result).2 = true) :
    storedCompleted (recordRead lib c candidate now result).1 candidate = true := by
  cases result with
  | none => cases h
  | some result => exact (Bool.and_eq_true_iff.mp h).2

theorem storedCompleted_clear (c : Chats) (candidate : Candidate) (target : Option String) :
    storedCompleted (clearTarget c target) candidate = storedCompleted c candidate := by
  unfold storedCompleted
  cases target <;> rfl

/-- The requests after a turn that read a page. -/
theorem ended_requests {lib : Stdlib} {s : RecoveryState} {c : Candidate} {call : TurnCall}
    {cleared : Option String} (hcleared : ∀ k, cleared = some k → k = c.target)
    {result : TurnResult} (h : Ended lib s c cleared call result) {target : String}
    (hpending : target ∈ pendingTargets s.chats) :
    target ∈ pendingTargets result.state.chats ∨
      (c.target = target ∧ storedCompleted result.state.chats c = true) := by
  cases h with
  | again after report hchats hattempts =>
    have hsame : after.chats.recoveryRequests = s.chats.recoveryRequests := by
      rcases hchats with hsame | ⟨read, hread⟩
      · rw [hsame]
      · rw [hread]
        exact (OnlyTouches.recordRead lib s.chats c call.now read).requests
    refine Or.inl ?_
    dsimp only [triedAgain]
    rw [deferred_targets]
    unfold pendingTargets at hpending ⊢
    rw [hsame]
    exact hpending
  | recovered read report hquiet hdone =>
    have hrequests := (OnlyTouches.recordRead lib s.chats c call.now read).requests
    have hkept : target ∈ pendingTargets (recordRead lib s.chats c call.now read).1 := by
      unfold pendingTargets at hpending ⊢
      rw [hrequests]
      exact hpending
    by_cases hname : c.target = target
    · refine Or.inr ⟨hname, ?_⟩
      dsimp only [overState]
      rw [storedCompleted_clear]
      exact recordRead_completed hdone
    · refine Or.inl ?_
      dsimp only [overState]
      cases cleared with
      | none => exact hkept
      | some k =>
        obtain rfl := hcleared k rfl
        obtain ⟨r, hr, rfl⟩ := List.mem_map.mp hkept
        refine List.mem_map_of_mem (List.mem_filter.mpr ⟨hr, ?_⟩)
        simpa using Ne.symm hname

/-- The request that a read consumes is for the turn it reads. -/
theorem manualTarget_name {c : Chats} {requests : List String} {candidate : Candidate}
    {manual : Bool} {call : TurnCall} {k : String}
    (h : manualTargetOf c requests candidate manual call = some k) : k = candidate.target := by
  unfold manualTargetOf at h
  split_ifs at h <;> exact (Option.some.inj h).symm

/-- A call keeps a pending request, or it drops it for one of the three reasons. -/
theorem step_keeps_request (lib : Stdlib) (s : RecoveryState) (call : RecoveryCall)
    {target : String} (hpending : target ∈ pendingTargets s.chats) :
    target ∈ pendingTargets (step lib s call).1.chats ∨
      Drops ⟨s, call, (step lib s call).2, (step lib s call).1⟩ target := by
  cases call with
  | turn call =>
    have hstep := turn_steps lib s call
    have hread : ∀ c, (recoverOnce lib s call).read = some c →
        readOf ⟨s, .turn call, (step lib s (.turn call)).2, (step lib s (.turn call)).1⟩ =
          some (call, c) := by
      intro c hc
      simp [readOf, step, hc]
    have hpost : (step lib s (.turn call)).1 = (recoverOnce lib s call).state := rfl
    rw [hpost]
    generalize recoverOnce lib s call = result at hstep hread
    cases hstep with
    | heldBack h => exact Or.inl hpending
    | nothing hfree h =>
      rcases mem_choosing call hpending with hconsumed | hkept
      · exact Or.inr (Drops.ended hconsumed)
      · exact Or.inl hkept
    | read c manual result hfree hchoice hslot hend =>
      rcases mem_choosing call hpending with hconsumed | hkept
      · exact Or.inr (Drops.ended hconsumed)
      rcases ended_requests (fun k hk => manualTarget_name hk) hend hkept with hstays |
        ⟨hname, hdone⟩
      · exact Or.inl hstays
      · have hc : result.read = some c := ended_read hend
        exact Or.inr (Drops.over call c (hread c hc) hname hdone)
  | request sendId targets now => exact Or.inl (addRequest_keeps sendId now _ s.chats hpending)
  | reserve kind now => exact Or.inl hpending
  | stop sendId now =>
    obtain ⟨r, hr, hname⟩ := List.mem_map.mp hpending
    by_cases hchat : r.sendId = sendId
    · exact Or.inr (Drops.stopped r hr hname ⟨now, by rw [hchat]⟩)
    · refine Or.inl (List.mem_map.mpr ⟨r, List.mem_filter.mpr ⟨hr, by simpa using hchat⟩, hname⟩)
  | others results replies pins => exact Or.inl hpending

/-- A request that is pending at some time is pending for the rest of the run, or some later
call found its turn ended, completed it, or stopped its chat. -/
theorem requests_kept (lib : Stdlib) (s : RecoveryState) (run : List RecoveryCall)
    {target : String} (hpending : target ∈ pendingTargets s.chats) :
    target ∈ pendingTargets (final (step lib) s run).chats ∨
      ∃ e ∈ events (step lib) s run, Drops e target := by
  induction run generalizing s with
  | nil => exact Or.inl hpending
  | cons call rest ih =>
    rcases step_keeps_request lib s call hpending with hkept | hdrops
    · rcases ih _ hkept with hlater | ⟨e, he, hdrops⟩
      · exact Or.inl hlater
      · exact Or.inr ⟨e, List.mem_cons_of_mem _ he, hdrops⟩
    · exact Or.inr ⟨_, List.mem_cons_self, hdrops⟩

theorem requests_kept_failedTurn :
    "run-1" ∈ pendingTargets
        (final (step Service.plainLib) twoRequests [failedTurn 0]).chats ∨
      ∃ e ∈ events (step Service.plainLib) twoRequests [failedTurn 0], Drops e "run-1" :=
  requests_kept Service.plainLib twoRequests [failedTurn 0] (by decide)

end Prompta.RequestWaits
