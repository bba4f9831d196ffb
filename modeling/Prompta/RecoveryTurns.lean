import Prompta.HistoryRecovery
import Prompta.Service

/-!
Runs of history recovery. Recovery turns, each in one step, requests, stops and the reply
dispatchers' slots are interleaved in any order, and between them the rest of the service may do
anything to the rows. Every call acts on the table of reads by reservations, pauses and counted
reads, and it touches no row but that of the branch a turn read and those of a stopped chat.
-/
namespace Prompta.RecoveryTurns

open Tables Texts Schema DisplayBlocks ResponseStore ReplyStore Runs
open RecoveryAttempts hiding step Call
open HistoryRecovery

/-- The probe of the page ends in a security challenge. -/
def challengesTurn (call : TurnCall) (c : Candidate) : Bool :=
  isUuid c.conversationId &&
    match call.probe c with
    | .securityChallenge => true
    | _ => false

/-- The state after a turn that is over for good. -/
def overState (lib : Stdlib) (s : RecoveryState) (c : Candidate) (target : Option String)
    (now : Time) (result : Option HistoryRead) : RecoveryState :=
  { s with chats := clearTarget (recordRead lib s.chats c now result).1 target }

/-- How the turn of a page that was read ends: it is over for good, or it is tried again. -/
inductive Ended (lib : Stdlib) (s : RecoveryState) (c : Candidate) (target : Option String)
    (call : TurnCall) : TurnResult → Prop
  | recovered (result : Option HistoryRead) (report : Option GateReport)
      (hquiet : challengesTurn call c = false)
      (hover : (recordRead lib s.chats c call.now result).2 = true) :
      Ended lib s c target call
        { state := overState lib s c target call.now result, recovered := true, read := some c,
          report := report }
  | again (after : RecoveryState) (report : Option GateReport)
      (hchats : after.chats = s.chats ∨
        ∃ result, after.chats = (recordRead lib s.chats c call.now result).1)
      (hattempts : after.attempts =
        if challengesTurn call c then challenged s.attempts call.now else s.attempts) :
      Ended lib s c target call
        { state := triedAgain after c target call.now, read := some c, report := report }

theorem probe_ends (lib : Stdlib) (s : RecoveryState) (c : Candidate) (target : Option String)
    (call : TurnCall) : Ended lib s c target call (probeTurn lib s c target call) := by
  unfold probeTurn
  by_cases huuid : isUuid c.conversationId = true
  · rw [if_neg (by simp [huuid])]
    cases hprobe : call.probe c with
    | failed => exact Ended.again s none (Or.inl rfl) (by simp [challengesTurn, hprobe])
    | rateLimited => exact Ended.again s _ (Or.inl rfl) (by simp [challengesTurn, hprobe])
    | securityChallenge =>
      exact Ended.again { s with attempts := challenged s.attempts call.now } none (Or.inl rfl)
        (by simp [challengesTurn, hprobe, huuid])
    | read result =>
      have hquiet : challengesTurn call c = false := by simp [challengesTurn, hprobe]
      dsimp only
      by_cases hover : (recordRead lib s.chats c call.now result).2 = true
      · rw [if_pos hover]
        exact Ended.recovered result _ hquiet hover
      · rw [if_neg hover]
        exact Ended.again { s with chats := (recordRead lib s.chats c call.now result).1 } none
          (Or.inr ⟨result, rfl⟩) (by simp [hquiet])
  · rw [if_pos (by simpa using huuid)]
    exact Ended.again s none (Or.inl rfl) (by simp [challengesTurn, huuid])

/-- The state in which the turn chooses: the consumed requests are dropped. -/
def choosing (s : RecoveryState) (call : TurnCall) : RecoveryState :=
  (nextRequestedCandidate s (turnRequests s call)).1

def choice (s : RecoveryState) (call : TurnCall) : Option (Candidate × Bool) :=
  chosen (choosing s call) (turnRequests s call)
    (nextRequestedCandidate s (turnRequests s call)).2 call

/-- The slot of a turn, with the table it leaves. -/
def turnSlot (s : RecoveryState) (call : TurnCall) (manual : Bool) : Attempts × Bool :=
  reserveHistoryRecoveryGlobalSlot s.attempts call.now (slotKind manual).interval

/-- What a turn can do. -/
inductive TurnStep (lib : Stdlib) (s : RecoveryState) (call : TurnCall) : TurnResult → Prop
  | heldBack (h : heldBack s.attempts call = true) : TurnStep lib s call { state := s }
  | nothing (hfree : HistoryRecovery.heldBack s.attempts call = false)
      (h : ∀ c manual, choice s call = some (c, manual) → (turnSlot s call manual).2 = false) :
      TurnStep lib s call { state := choosing s call }
  | read (c : Candidate) (manual : Bool) (result : TurnResult)
      (hfree : HistoryRecovery.heldBack s.attempts call = false)
      (hchoice : choice s call = some (c, manual))
      (hslot : (turnSlot s call manual).2 = true)
      (hend : Ended lib { choosing s call with attempts := (turnSlot s call manual).1 } c
        (manualTargetOf (choosing s call).chats (turnRequests s call) c manual call) call result) :
      TurnStep lib s call { result with slot := some (slotKind manual) }

theorem turn_steps (lib : Stdlib) (s : RecoveryState) (call : TurnCall) :
    TurnStep lib s call (recoverOnce lib s call) := by
  unfold recoverOnce
  by_cases hheld : heldBack s.attempts call = true
  · rw [if_pos hheld]
    exact TurnStep.heldBack hheld
  · rw [if_neg hheld]
    have hfree : heldBack s.attempts call = false := by simpa using hheld
    dsimp only
    split
    · rename_i hnone
      refine TurnStep.nothing hfree ?_
      intro c manual hchoice
      exact absurd (hchoice.symm.trans hnone) (by simp)
    · rename_i c manual hchoice
      split
      · rename_i hslot
        refine TurnStep.nothing hfree ?_
        intro c' manual' hchoice'
        obtain ⟨rfl, rfl⟩ := Prod.mk.inj (Option.some.inj (hchoice'.symm.trans hchoice))
        exact (Bool.not_eq_true' _).mp hslot
      · rename_i hslot
        have hgranted : (turnSlot s call manual).2 = true := by
          by_contra hrefused
          exact hslot ((Bool.not_eq_true' _).mpr (Bool.eq_false_of_not_eq_true hrefused))
        exact TurnStep.read c manual _ hfree hchoice hgranted (probe_ends lib _ c _ call)

/-- No chat carries the name of a sentinel row. -/
def NoSentinels (results : Results) : Prop := ∀ r ∈ results.rows, isSentinel r.sendId = false

theorem fromRow_name {s : RecoveryState} {c : Candidate} (h : FromRow s c)
    (hnames : NoSentinels s.chats.results) : isSentinel c.target = false := by
  cases h with
  | original r hmem hopen => exact hnames r hmem
  | reply r hmem hopen => exact replyTarget_not_sentinel r.replyId

def keepRequests (c : Chats) (p : RecoveryRequest → Bool) : Chats :=
  { c with recoveryRequests := c.recoveryRequests.filter p }

theorem dropped_eq (requests : List String) (c : Chats) :
    requests.foldl clearManualRecoveryRequest c =
      keepRequests c fun r => decide (r.targetId ∉ requests) := by
  induction requests generalizing c with
  | nil => simp [keepRequests]
  | cons target rest ih =>
    rw [List.foldl_cons, ih, clearManualRecoveryRequest]
    simp only [keepRequests, List.filter_filter, List.mem_cons, not_or, Bool.decide_and,
      Bool.and_comm]

/-- The requests that a turn drops before it chooses. -/
def droppedBy (s : RecoveryState) (call : TurnCall) : List String :=
  (turnRequests s call).filter fun target =>
    decide (requestedTurn s target = none) && consumed s target

theorem choosing_eq (s : RecoveryState) (call : TurnCall) :
    choosing s call =
      { s with chats := keepRequests s.chats fun r => decide (r.targetId ∉ droppedBy s call) } :=
  congrArg (fun c : Chats => ({ s with chats := c } : RecoveryState))
    (dropped_eq (droppedBy s call) s.chats)

theorem choosing_requestedTurn (s : RecoveryState) (call : TurnCall) (target : String) :
    requestedTurn (choosing s call) target = requestedTurn s target := by
  rw [choosing_eq]
  rfl

theorem choice_fromRow {s : RecoveryState} {call : TurnCall} {c : Candidate} {manual : Bool}
    (h : choice s call = some (c, manual)) : FromRow (choosing s call) c := by
  refine fromRow_chosen ?_ h
  intro d hd
  obtain ⟨target, _, htarget⟩ := nextRequested_mem hd
  exact fromRow_requested ((choosing_requestedTurn s call target).trans htarget)

theorem choice_name {s : RecoveryState} {call : TurnCall} {c : Candidate} {manual : Bool}
    (h : choice s call = some (c, manual)) (hnames : NoSentinels s.chats.results) :
    isSentinel c.target = false := by
  refine fromRow_name (choice_fromRow h) ?_
  rw [choosing_eq]
  exact hnames

/-- The writes of a turn to the table of reads. -/
def challengeWrites (t : Attempts) (call : TurnCall) (c : Candidate) :
    List RecoveryAttempts.Call :=
  if challengesTurn call c then
    [⟨call.now, .pause (historyRecoverySecurityFailures t call.now)⟩] else []

def turnWrites (t : Attempts) (call : TurnCall) (c : Candidate) (manual recovered : Bool) :
    List RecoveryAttempts.Call :=
  ⟨call.now, .reserve (slotKind manual)⟩ :: challengeWrites t call c ++
    if recovered then [] else [⟨call.now, .attempt c.target⟩]

theorem challengeWrites_final (t : Attempts) (call : TurnCall) (c : Candidate) :
    final RecoveryAttempts.step t (challengeWrites t call c) =
      if challengesTurn call c then challenged t call.now else t := by
  unfold challengeWrites
  split <;> rfl

/-- The writes of a turn to the table of reads, in their order. -/
theorem ended_attempts {lib : Stdlib} {s : RecoveryState} {c : Candidate} {target : Option String}
    {call : TurnCall} {result : TurnResult} (h : Ended lib s c target call result) :
    result.state.attempts = final RecoveryAttempts.step s.attempts
      (challengeWrites s.attempts call c ++
        if result.recovered then [] else [⟨call.now, .attempt c.target⟩]) := by
  rw [final_append, challengeWrites_final]
  cases h with
  | recovered result report hquiet hover =>
    rw [hquiet]
    rfl
  | again after report hchats hattempts =>
    rw [← hattempts]
    rfl

theorem ended_read {lib : Stdlib} {s : RecoveryState} {c : Candidate} {target : Option String}
    {call : TurnCall} {result : TurnResult} (h : Ended lib s c target call result) :
    result.read = some c := by
  cases h <;> rfl

/-- A turn writes under its own name, never under a sentinel's. -/
theorem turnWrites_named (t : Attempts) (call : TurnCall) (c : Candidate) (manual recovered : Bool)
    (hname : isSentinel c.target = false) :
    ∀ w ∈ turnWrites t call c manual recovered, ∀ sendId, w.write = .attempt sendId →
      isSentinel sendId = false := by
  intro w hw sendId hwrite
  unfold turnWrites challengeWrites at hw
  simp only [List.cons_append, List.mem_cons, List.mem_append] at hw
  rcases hw with rfl | hw | hw
  · cases hwrite
  · split at hw
    · rw [List.mem_singleton.mp hw] at hwrite
      cases hwrite
    · cases hw
  · split at hw
    · cases hw
    · rw [List.mem_singleton.mp hw] at hwrite
      cases hwrite
      exact hname

theorem meets_named (t : Attempts) (writes : List RecoveryAttempts.Call)
    (h : ∀ w ∈ writes, ∀ sendId, w.write = .attempt sendId → isSentinel sendId = false) :
    Meets RecoveryAttempts.step NamesTurn t writes := by
  rw [meets_iff_events]
  intro e he
  exact h e.input (event_input _ _ _ e he)

/-- The calls of the recovery worker, of the pages and dispatchers beside it, and of the rest of
the service. -/
inductive RecoveryCall
  | turn (call : TurnCall)
  | request (sendId : String) (targets : List String) (now : Time)
  | reserve (kind : ReadKind) (now : Time)
  | stop (sendId : String) (now : Time)
  | others (results : Results) (replies : Replies) (pins : List LocalPin)

inductive Output
  | turned (result : TurnResult)
  | requested (pending : ℕ)
  | reserved (granted : Bool)
  | done

def step (lib : Stdlib) (s : RecoveryState) : RecoveryCall → RecoveryState × Output
  | .turn call => ((recoverOnce lib s call).state, .turned (recoverOnce lib s call))
  | .request sendId targets now =>
    let queued := queueManualRecovery s.chats sendId targets now
    ({ s with chats := queued.1 }, .requested queued.2)
  | .reserve kind now =>
    let slot := reserveHistoryRecoveryGlobalSlot s.attempts now kind.interval
    ({ s with attempts := slot.1 }, .reserved slot.2)
  | .stop sendId now => ({ s with chats := Service.stopChat s.chats sendId now }, .done)
  | .others results replies pins =>
    ({ s with chats := { s.chats with results := results, replies := replies,
                                      localPins := pins } }, .done)

/-- The rest of the service names no chat like a sentinel row. -/
def KeepsNames (_ : RecoveryState) (call : RecoveryCall) : Prop :=
  ∀ results replies pins, call = .others results replies pins → NoSentinels results

theorem failures_after_slot (s : RecoveryState) (call : TurnCall) (manual : Bool) (now : Time) :
    historyRecoverySecurityFailures (turnSlot s call manual).1 now =
      historyRecoverySecurityFailures s.attempts now := by
  unfold historyRecoverySecurityFailures
  rw [turnSlot, reserve_lookup_ne _ _ _ sentinels_differ]

/-- A turn reads no page and leaves the table of reads, or it reads one in a slot of its own. -/
theorem turn_attempts (lib : Stdlib) (s : RecoveryState) (call : TurnCall) :
    ((recoverOnce lib s call).read = none ∧ (recoverOnce lib s call).slot = none ∧
      (recoverOnce lib s call).state.attempts = s.attempts) ∨
    ∃ c manual, (recoverOnce lib s call).read = some c ∧
      (recoverOnce lib s call).slot = some (slotKind manual) ∧
      heldBack s.attempts call = false ∧ choice s call = some (c, manual) ∧
      (turnSlot s call manual).2 = true ∧
      (recoverOnce lib s call).state.attempts = final RecoveryAttempts.step s.attempts
        (turnWrites s.attempts call c manual (recoverOnce lib s call).recovered) := by
  have hstep := turn_steps lib s call
  generalize recoverOnce lib s call = result at hstep
  cases hstep with
  | heldBack h => exact Or.inl ⟨rfl, rfl, rfl⟩
  | nothing hfree h =>
    have hsame : (choosing s call).attempts = s.attempts := by rw [choosing_eq]
    exact Or.inl ⟨rfl, rfl, hsame⟩
  | read c manual result hfree hchoice hslot hend =>
    have hread : result.read = some c := ended_read hend
    refine Or.inr ⟨c, manual, hread, rfl, hfree, hchoice, hslot, ?_⟩
    have hwrites := ended_attempts hend
    unfold challengeWrites at hwrites
    rw [failures_after_slot] at hwrites
    exact hwrites

/-- Every call writes to the table of reads as a run of its own calls does. -/
theorem step_writes (lib : Stdlib) (s : RecoveryState) (call : RecoveryCall)
    (hnames : NoSentinels s.chats.results) :
    ∃ writes, Meets RecoveryAttempts.step NamesTurn s.attempts writes ∧
      (step lib s call).1.attempts = final RecoveryAttempts.step s.attempts writes := by
  cases call with
  | turn call =>
    rcases turn_attempts lib s call with ⟨_, _, hsame⟩ | ⟨c, manual, _, _, _, hchoice, _, hwrites⟩
    · exact ⟨[], trivial, hsame⟩
    · refine ⟨_, meets_named _ _ ?_, hwrites⟩
      exact turnWrites_named s.attempts call c manual _ (choice_name hchoice hnames)
  | reserve kind now =>
    refine ⟨[⟨now, .reserve kind⟩], ⟨?_, trivial⟩, rfl⟩
    intro sendId h
    cases h
  | request sendId targets now => exact ⟨[], trivial, rfl⟩
  | stop sendId now => exact ⟨[], trivial, rfl⟩
  | others results replies pins => exact ⟨[], trivial, rfl⟩

/-- A turn touches no row but the one of its branch. -/
structure OnlyTouches (branch : Branch) (c c' : Chats) : Prop where
  results : ∀ k, branch ≠ .original k → c'.results.lookup k = c.results.lookup k
  replies : ∀ k, (∀ parentId prompt, branch ≠ .reply k parentId prompt) →
    c'.replies.lookup k = c.replies.lookup k
  names : c'.results.rows.map ResultRow.sendId = c.results.rows.map ResultRow.sendId
  pins : c'.localPins = c.localPins
  requests : c'.recoveryRequests = c.recoveryRequests

namespace OnlyTouches

theorem refl (branch : Branch) (c : Chats) : OnlyTouches branch c c :=
  ⟨fun _ _ => rfl, fun _ _ => rfl, rfl, rfl, rfl⟩

theorem trans {branch : Branch} {a b c : Chats} (hab : OnlyTouches branch a b)
    (hbc : OnlyTouches branch b c) : OnlyTouches branch a c where
  results k hk := (hbc.results k hk).trans (hab.results k hk)
  replies k hk := (hbc.replies k hk).trans (hab.replies k hk)
  names := hbc.names.trans hab.names
  pins := hbc.pins.trans hab.pins
  requests := hbc.requests.trans hab.requests

theorem updateResult (c : Chats) (sendId : String) (p : ResultRow → Bool)
    (f : ResultRow → ResultRow) (hf : ∀ r, (f r).sendId = r.sendId) :
    OnlyTouches (.original sendId) c (ResponseStore.updateResult c sendId p f hf).1 where
  results k hk := by
    have hne : k ≠ sendId := by
      rintro rfl
      exact hk rfl
    exact Table.lookup_updateAt_ne c.results sendId k p f hf hne
  replies _ _ := rfl
  names := Table.keys_update c.results _ f hf
  pins := rfl
  requests := rfl

theorem updateReply (c : Chats) (replyId parentId : String) (prompt : Text)
    (p : ReplyRow → Bool) (f : ReplyRow → ReplyRow) (hf : ∀ r, (f r).replyId = r.replyId) :
    OnlyTouches (.reply replyId parentId prompt) c
      (ReplyStore.updateReply c replyId p f hf).1 where
  results _ _ := rfl
  replies k hk := by
    have hne : k ≠ replyId := by
      rintro rfl
      exact hk parentId prompt rfl
    exact Table.lookup_updateAt_ne c.replies replyId k p f hf hne
  names := rfl
  pins := rfl
  requests := rfl

theorem noteLoaded (c : Chats) (candidate : Candidate) (result : HistoryRead) (now : Time) :
    OnlyTouches candidate.branch c (HistoryRecovery.noteLoaded c candidate result now) := by
  unfold HistoryRecovery.noteLoaded
  cases candidate.branch with
  | reply replyId parentId prompt =>
    dsimp only
    split
    · unfold observeHistoryLoaded
      split
      · exact refl _ c
      · exact updateReply c replyId parentId prompt _ _ _
    · exact refl _ c
  | original sendId =>
    dsimp only
    split
    · unfold observeHistoryGenerating
      split
      · exact refl _ c
      · exact updateResult c sendId _ _ _
    · exact refl _ c

theorem saveRead (lib : Stdlib) (c : Chats) (candidate : Candidate) (capture : CaptureResult)
    (now : Time) :
    OnlyTouches candidate.branch c (HistoryRecovery.saveRead lib c candidate capture now).1 := by
  unfold HistoryRecovery.saveRead
  cases candidate.branch with
  | reply replyId parentId prompt =>
    rcases recoverHistoricalReply_cases lib c replyId capture now with hsame | ⟨r, _, _, hrow⟩
    · dsimp only
      rw [hsame]
      exact refl _ c
    · dsimp only
      rw [hrow]
      exact updateReply c replyId parentId prompt _ _ _
  | original sendId =>
    rcases recoverHistoricalResponse_cases lib c sendId capture now with hsame | ⟨r, _, _, hrow⟩
    · dsimp only
      rw [hsame]
      exact refl _ c
    · dsimp only
      rw [hrow]
      exact updateResult c sendId _ _ _

theorem recordRead (lib : Stdlib) (c : Chats) (candidate : Candidate) (now : Time)
    (result : Option HistoryRead) :
    OnlyTouches candidate.branch c
      (HistoryRecovery.recordRead lib c candidate now result).1 := by
  cases result with
  | none => exact refl _ c
  | some result =>
    exact (noteLoaded c candidate result now).trans
      (saveRead lib _ candidate result.capture now)

end OnlyTouches

/-- A turn writes to the rows of its own branch. -/
theorem ended_rows {lib : Stdlib} {s : RecoveryState} {c : Candidate} {target : Option String}
    {call : TurnCall} {result : TurnResult} (h : Ended lib s c target call result) :
    ∃ chats, OnlyTouches c.branch s.chats chats ∧
      result.state.chats.results = chats.results ∧ result.state.chats.replies = chats.replies ∧
      result.state.chats.localPins = chats.localPins := by
  cases h with
  | recovered read report hquiet hover =>
    refine ⟨_, OnlyTouches.recordRead lib s.chats c call.now read, ?_⟩
    cases target <;> exact ⟨rfl, rfl, rfl⟩
  | again after report hchats hattempts =>
    have hrows : OnlyTouches c.branch s.chats after.chats := by
      rcases hchats with hsame | ⟨read, hread⟩
      · rw [hsame]
        exact OnlyTouches.refl _ _
      · rw [hread]
        exact OnlyTouches.recordRead lib s.chats c call.now read
    refine ⟨after.chats, hrows, ?_⟩
    cases target <;> exact ⟨rfl, rfl, rfl⟩

/-- The rows after a turn: none is touched but that of the branch that was read. -/
theorem turn_rows (lib : Stdlib) (s : RecoveryState) (call : TurnCall) :
    ((recoverOnce lib s call).state.chats.results = s.chats.results ∧
      (recoverOnce lib s call).state.chats.replies = s.chats.replies ∧
      (recoverOnce lib s call).state.chats.localPins = s.chats.localPins) ∨
    ∃ c chats, (recoverOnce lib s call).read = some c ∧ OnlyTouches c.branch s.chats chats ∧
      (recoverOnce lib s call).state.chats.results = chats.results ∧
      (recoverOnce lib s call).state.chats.replies = chats.replies ∧
      (recoverOnce lib s call).state.chats.localPins = chats.localPins := by
  have hstep := turn_steps lib s call
  generalize recoverOnce lib s call = result at hstep
  cases hstep with
  | heldBack h => exact Or.inl ⟨rfl, rfl, rfl⟩
  | nothing hfree h =>
    rw [choosing_eq]
    exact Or.inl ⟨rfl, rfl, rfl⟩
  | read c manual result hfree hchoice hslot hend =>
    have hread : result.read = some c := ended_read hend
    obtain ⟨chats, hrows, hresults, hreplies, hpins⟩ := ended_rows hend
    refine Or.inr ⟨c, { chats with recoveryRequests := s.chats.recoveryRequests }, hread, ?_,
      hresults, hreplies, hpins⟩
    rw [choosing_eq] at hrows
    exact ⟨hrows.results, hrows.replies, hrows.names, hrows.pins, rfl⟩

theorem noSentinels_of_keys {results results' : Results}
    (h : results'.rows.map ResultRow.sendId = results.rows.map ResultRow.sendId)
    (hnames : NoSentinels results) : NoSentinels results' := by
  intro r hr
  have hkey : r.sendId ∈ results.rows.map ResultRow.sendId := h ▸ List.mem_map_of_mem hr
  obtain ⟨old, hold, hsame⟩ := List.mem_map.mp hkey
  rw [← hsame]
  exact hnames old hold

theorem addRequest_results (sendId : String) (now : Time) (targets : List String) (c : Chats) :
    (targets.foldl (addRequest sendId now) c).results = c.results ∧
      (targets.foldl (addRequest sendId now) c).replies = c.replies ∧
      (targets.foldl (addRequest sendId now) c).localPins = c.localPins := by
  induction targets generalizing c with
  | nil => exact ⟨rfl, rfl, rfl⟩
  | cons target rest ih =>
    obtain ⟨hresults, hreplies, hpins⟩ := ih (addRequest sendId now c target)
    rw [List.foldl_cons, hresults, hreplies, hpins]
    unfold addRequest
    split <;> exact ⟨rfl, rfl, rfl⟩

theorem step_names (lib : Stdlib) (s : RecoveryState) (call : RecoveryCall)
    (hkeeps : KeepsNames s call) (hnames : NoSentinels s.chats.results) :
    NoSentinels (step lib s call).1.chats.results := by
  cases call with
  | turn call =>
    rcases turn_rows lib s call with ⟨hresults, _, _⟩ | ⟨c, chats, _, hrows, hresults, _, _⟩
    · exact noSentinels_of_keys (congrArg (fun t : Results => t.rows.map ResultRow.sendId) hresults)
        hnames
    · have hkeys : (recoverOnce lib s call).state.chats.results.rows.map ResultRow.sendId =
          s.chats.results.rows.map ResultRow.sendId := by rw [hresults, hrows.names]
      exact noSentinels_of_keys hkeys hnames
  | request sendId targets now =>
    have hsame : (step lib s (.request sendId targets now)).1.chats.results = s.chats.results :=
      (addRequest_results sendId now targets.dedup s.chats).1
    rw [hsame]
    exact hnames
  | reserve kind now => exact hnames
  | stop sendId now =>
    exact noSentinels_of_keys (Table.keys_update s.chats.results _ (Service.stopResult now)
      fun _ => id rfl) hnames
  | others results replies pins => exact hkeeps results replies pins rfl

def readOf (e : Event RecoveryState RecoveryCall Output) : Option (TurnCall × Candidate) :=
  match e.input, e.output with
  | .turn call, .turned result => result.read.map fun c => (call, c)
  | _, _ => none

/-- No chat of a run carries a sentinel's name. -/
theorem event_names {lib : Stdlib} {s : RecoveryState} {run : List RecoveryCall}
    (hnames : NoSentinels s.chats.results) (hrun : Meets (step lib) KeepsNames s run)
    (e : Event RecoveryState RecoveryCall Output) (he : e ∈ events (step lib) s run) :
    NoSentinels e.pre.chats.results :=
  event_invariant (step lib) KeepsNames (fun u => NoSentinels u.chats.results)
    (fun u call hcall hu => step_names lib u call hcall hu) s hnames run hrun e he

def interruptedRun (sendId : String) : ResultRow :=
  { sendId := sendId, userText := [], status := .interrupted,
    conversationId := "00000000-0000-4000-8000-000000000000", createdAt := 0, updatedAt := 0 }

def twoRequests : RecoveryState where
  chats :=
    { results := ⟨[interruptedRun "run-1", interruptedRun "run-2"], by decide⟩
      replies := Table.empty
      recoveryRequests := [⟨"run-1", "run-1", 0⟩, ⟨"run-2", "run-2", 1⟩] }
  attempts := Table.empty

def failedTurn (now : Time) : RecoveryCall :=
  .turn { now := now, background := true, probe := fun _ => .failed }

theorem twoRequests_named : NoSentinels twoRequests.chats.results := by
  unfold NoSentinels
  decide

theorem failedTurn_named (s : RecoveryState) (now : Time) : KeepsNames s (failedTurn now) := by
  intro results replies pins h
  cases h

end Prompta.RecoveryTurns
