import Mathlib.Algebra.Order.Ring.Rat
import Mathlib.Tactic.Linarith
import Prompta.Runs
import Prompta.Tables
import Prompta.Texts

/-!
The table of history reads. A row counts the reads of one turn; two further rows, under
names that no turn has, hold the account-wide pace and the pause after a security challenge.
A read starts with a reservation of the pace row, in one statement, so the reservations of
all processes form one sequence whatever clocks they read.
-/
namespace Prompta.RecoveryAttempts

open Tables Texts Runs

/-- A row of `history_recovery_attempts`. -/
structure Attempt where
  sendId : String
  attemptCount : ℕ
  nextAttemptAt : Time
  lastAttemptAt : Time
  deriving DecidableEq

abbrev Attempts := Table Attempt String Attempt.sendId

def globalPacing : String := "__global_pacing__"

def securityPause : String := "__security_pause__"

def isSentinel (sendId : String) : Bool :=
  decide (sendId = globalPacing) || decide (sendId = securityPause)

def scheduledRow (deadline at_ : Time) (r : Attempt) : Attempt :=
  { r with attemptCount := r.attemptCount + 1, nextAttemptAt := deadline, lastAttemptAt := at_ }

def scheduleHistoryRecovery (t : Attempts) (sendId : String) (nextAttemptAt : Option Time)
    (now : Time) : Attempts :=
  let deadline := if isSentinel sendId then nextAttemptAt.getD now else now
  t.upsert ⟨sendId, 1, deadline, now⟩ (fun _ => true) (scheduledRow deadline now)
    (fun _ => id rfl)

def attemptCount (t : Attempts) (sendId : String) : ℕ :=
  (t.lookup sendId).elim 0 Attempt.attemptCount

def historyRecoverySecurityPauseRemaining (t : Attempts) (now : Time) : Time :=
  max 0 ((t.lookup securityPause).elim 0 Attempt.nextAttemptAt - now)

def daySeconds : Time := 24 * 3600

def historyRecoverySecurityFailures (t : Attempts) (now : Time) : ℕ :=
  match t.lookup securityPause with
  | none => 0
  | some row => if daySeconds ≤ now - row.lastAttemptAt then 0 else row.attemptCount

def historyRecoveryGlobalPaceRemaining (t : Attempts) (now : Time) : Time :=
  max 0 ((t.lookup globalPacing).elim 0 Attempt.nextAttemptAt - now)

def historyRecoveryGlobalAttemptCount (t : Attempts) : ℕ := attemptCount t globalPacing

/-- The update of a reservation carries its own deadline check. -/
def reserveHistoryRecoveryGlobalSlot (t : Attempts) (now interval : Time) : Attempts × Bool :=
  (t.upsert ⟨globalPacing, 1, now + interval, now⟩ (fun r => decide (r.nextAttemptAt ≤ now))
    (scheduledRow (now + interval) now) (fun _ => id rfl),
    (t.lookup globalPacing).all fun r => decide (r.nextAttemptAt ≤ now))

def pausedRow (until_ now : Time) (r : Attempt) : Attempt :=
  { r with
    nextAttemptAt := max r.nextAttemptAt until_
    lastAttemptAt := now
    attemptCount := if r.lastAttemptAt ≤ now - daySeconds then 1 else r.attemptCount + 1 }

def pauseHistoryRecoverySecurity (t : Attempts) (until_ now : Time) : Attempts :=
  t.upsert ⟨securityPause, 1, until_, now⟩ (fun _ => true) (pausedRow until_ now)
    (fun _ => id rfl)

def historyReadIntervalSeconds : Time := 5 * 60

def manualHistoryReadIntervalSeconds : Time := 60

/-- What a history read is for. It sets how long the next read waits. -/
inductive ReadKind
  | manual
  | history
  deriving DecidableEq, Repr

def ReadKind.interval : ReadKind → Time
  | .manual => manualHistoryReadIntervalSeconds
  | .history => historyReadIntervalSeconds

def securityPauseBaseSeconds : Time := 30 * 60

def securityPauseCapSeconds : Time := 4 * 3600

/-- The pause after a challenge, by the number of recent ones. -/
def challengePause (failures : ℕ) : Time :=
  min securityPauseCapSeconds (securityPauseBaseSeconds * 2 ^ min failures 3)

/-- The writes of the history readers. A challenged reader reads the number of failures
first, so the number it pauses for may be an old one. -/
inductive Write
  | reserve (kind : ReadKind)
  | attempt (sendId : String)
  | pause (failures : ℕ)

structure Call where
  now : Time
  write : Write

def step (t : Attempts) (call : Call) : Attempts × Bool :=
  match call.write with
  | .reserve kind => reserveHistoryRecoveryGlobalSlot t call.now kind.interval
  | .attempt sendId => (scheduleHistoryRecovery t sendId none call.now, true)
  | .pause failures =>
    (pauseHistoryRecoverySecurity t (call.now + challengePause failures) call.now, true)

/-- A turn carries no sentinel's name. -/
def NamesTurn (_ : Attempts) (call : Call) : Prop :=
  ∀ sendId, call.write = .attempt sendId → isSentinel sendId = false

theorem schedule_lookup_ne (t : Attempts) (sendId : String) (deadline : Option Time) (now : Time)
    {k : String} (hk : k ≠ sendId) :
    (scheduleHistoryRecovery t sendId deadline now).lookup k = t.lookup k :=
  Table.lookup_upsert_ne t _ _ _ _ hk

theorem reserve_lookup_ne (t : Attempts) (now interval : Time) {k : String}
    (hk : k ≠ globalPacing) :
    (reserveHistoryRecoveryGlobalSlot t now interval).1.lookup k = t.lookup k :=
  Table.lookup_upsert_ne t _ _ _ _ hk

theorem pause_lookup_ne (t : Attempts) (until_ now : Time) {k : String} (hk : k ≠ securityPause) :
    (pauseHistoryRecoverySecurity t until_ now).lookup k = t.lookup k :=
  Table.lookup_upsert_ne t _ _ _ _ hk

theorem sentinels_differ : securityPause ≠ globalPacing := by decide

/-- A sentinel row is not the row of a turn. -/
theorem ne_of_isSentinel {k sendId : String} (hk : isSentinel k = true)
    (h : isSentinel sendId = false) : k ≠ sendId := by
  rintro rfl
  rw [h] at hk
  cases hk

/-- The next read may start when no slot was granted yet or the last one has run out. -/
def PaceOpen (t : Attempts) (now : Time) : Prop :=
  ∀ row, t.lookup globalPacing = some row → row.nextAttemptAt ≤ now

theorem reserve_granted_iff (t : Attempts) (now interval : Time) :
    (reserveHistoryRecoveryGlobalSlot t now interval).2 = true ↔ PaceOpen t now := by
  unfold reserveHistoryRecoveryGlobalSlot PaceOpen
  cases t.lookup globalPacing <;> simp

/-- A granted slot leaves its own deadline in the pace row and is counted there. -/
theorem reserve_granted {t : Attempts} {now interval : Time}
    (h : (reserveHistoryRecoveryGlobalSlot t now interval).2 = true) :
    (reserveHistoryRecoveryGlobalSlot t now interval).1.lookup globalPacing =
      some ⟨globalPacing, historyRecoveryGlobalAttemptCount t + 1, now + interval, now⟩ := by
  have hopen := (reserve_granted_iff t now interval).mp h
  have hself := Table.lookup_upsert_self t ⟨globalPacing, 1, now + interval, now⟩
    (fun r => decide (r.nextAttemptAt ≤ now)) (scheduledRow (now + interval) now)
    (fun _ => id rfl)
  refine hself.trans ?_
  unfold historyRecoveryGlobalAttemptCount attemptCount
  cases hrow : t.lookup globalPacing with
  | none => rfl
  | some row =>
    have hdue : row.nextAttemptAt ≤ now := hopen row hrow
    have hkey : row.sendId = globalPacing := Table.lookup_key hrow
    simp [hdue, scheduledRow, hkey]

theorem reserve_refused {t : Attempts} {now interval : Time}
    (h : (reserveHistoryRecoveryGlobalSlot t now interval).2 = false) :
    (reserveHistoryRecoveryGlobalSlot t now interval).1 = t := by
  unfold reserveHistoryRecoveryGlobalSlot at h ⊢
  dsimp only at h ⊢
  unfold Table.upsert
  cases hrow : t.lookup globalPacing with
  | none => simp [hrow] at h
  | some row =>
    apply Table.updateAt_eq_self
    rw [Table.hits_eq_false_iff]
    intro old hold
    rw [hrow] at h
    obtain rfl : row = old := Option.some.inj (hrow.symm.trans hold)
    exact h

def granted (e : Event Attempts Call Bool) : Bool :=
  match e.input.write with
  | .reserve _ => e.output
  | _ => false

/-- How long the slot of a granted reservation lasts. -/
def slotSeconds (e : Event Attempts Call Bool) : Time :=
  match e.input.write with
  | .reserve kind => kind.interval
  | _ => 0

def grants (t : Attempts) (run : List Call) : List (Event Attempts Call Bool) :=
  (events step t run).filter granted

theorem minute_le_interval (kind : ReadKind) : 60 ≤ kind.interval := by
  cases kind <;> norm_num [ReadKind.interval, manualHistoryReadIntervalSeconds,
    historyReadIntervalSeconds]

theorem minute_le_slotSeconds {e : Event Attempts Call Bool} (h : granted e = true) :
    60 ≤ slotSeconds e := by
  obtain ⟨t, ⟨now, write⟩, output, t'⟩ := e
  cases write with
  | reserve kind => exact minute_le_interval kind
  | attempt sendId => cases h
  | pause failures => cases h

/-- What one call does to the pace row: a granted slot finds it open and rewrites it, and every
other call leaves it. -/
theorem pace_step (t : Attempts) (call : Call) (hturn : NamesTurn t call) :
    (granted ⟨t, call, (step t call).2, (step t call).1⟩ = true ∧ PaceOpen t call.now ∧
      (step t call).1.lookup globalPacing =
        some ⟨globalPacing, historyRecoveryGlobalAttemptCount t + 1,
          call.now + slotSeconds ⟨t, call, (step t call).2, (step t call).1⟩, call.now⟩) ∨
    (granted ⟨t, call, (step t call).2, (step t call).1⟩ = false ∧
      (step t call).1.lookup globalPacing = t.lookup globalPacing) := by
  obtain ⟨now, write⟩ := call
  cases write with
  | reserve kind =>
    cases h : (reserveHistoryRecoveryGlobalSlot t now kind.interval).2 with
    | true =>
      have hopen := (reserve_granted_iff t now kind.interval).mp h
      exact Or.inl ⟨h, hopen, reserve_granted h⟩
    | false =>
      refine Or.inr ⟨h, ?_⟩
      exact congrArg (fun u : Attempts => u.lookup globalPacing) (reserve_refused h)
  | attempt sendId =>
    have hname : isSentinel sendId = false := hturn sendId rfl
    exact Or.inr ⟨rfl, schedule_lookup_ne t sendId none now (ne_of_isSentinel rfl hname)⟩
  | pause failures =>
    exact Or.inr ⟨rfl, pause_lookup_ne t _ now sentinels_differ.symm⟩

theorem globalAttemptCount_congr {t t' : Attempts}
    (h : t'.lookup globalPacing = t.lookup globalPacing) :
    historyRecoveryGlobalAttemptCount t' = historyRecoveryGlobalAttemptCount t := by
  unfold historyRecoveryGlobalAttemptCount attemptCount
  rw [h]

theorem events_cons (t : Attempts) (call : Call) (rest : List Call) :
    events step t (call :: rest) =
      ⟨t, call, (step t call).2, (step t call).1⟩ :: events step (step t call).1 rest := rfl

/-- Granted slots lie apart by the earlier one's length, and none starts before the deadline of
the pace row. -/
theorem grants_after (t : Attempts) (run : List Call) (hrun : Meets step NamesTurn t run) :
    (∀ e ∈ grants t run, PaceOpen t e.input.now) ∧
      (grants t run).Pairwise fun e e' => e.input.now + slotSeconds e ≤ e'.input.now := by
  induction run generalizing t with
  | nil => exact ⟨fun e he => absurd he List.not_mem_nil, List.Pairwise.nil⟩
  | cons call rest ih =>
    obtain ⟨hafter, hspaced⟩ := ih (step t call).1 hrun.2
    rcases pace_step t call hrun.1 with ⟨hgrant, hopen, hrow⟩ | ⟨hrefused, hrow⟩
    · have hlater : ∀ e ∈ grants (step t call).1 rest,
          call.now + slotSeconds ⟨t, call, (step t call).2, (step t call).1⟩ ≤ e.input.now :=
        fun e he => hafter e he _ hrow
      unfold grants at hlater hspaced ⊢
      rw [events_cons, List.filter_cons_of_pos hgrant]
      refine ⟨?_, List.pairwise_cons.mpr ⟨hlater, hspaced⟩⟩
      intro e he
      rcases List.mem_cons.mp he with rfl | he
      · exact hopen
      · intro row hold
        have hstart : row.nextAttemptAt ≤ call.now := hopen row hold
        have hlong := minute_le_slotSeconds hgrant
        have hend := hlater e he
        linarith
    · unfold grants at hafter hspaced ⊢
      rw [events_cons, List.filter_cons_of_neg (by simp [hrefused])]
      refine ⟨?_, hspaced⟩
      intro e he row hold
      exact hafter e he row (hrow.trans hold)

/-- The counter of the pace row counts the granted slots. -/
theorem grants_counted (t : Attempts) (run : List Call) (hrun : Meets step NamesTurn t run) :
    historyRecoveryGlobalAttemptCount (final step t run) =
      historyRecoveryGlobalAttemptCount t + (grants t run).length := by
  induction run generalizing t with
  | nil => rfl
  | cons call rest ih =>
    have hrest := ih (step t call).1 hrun.2
    unfold grants at hrest ⊢
    rw [final, hrest, events_cons]
    rcases pace_step t call hrun.1 with ⟨hgrant, _, hrow⟩ | ⟨hrefused, hrow⟩
    · have hcount : historyRecoveryGlobalAttemptCount (step t call).1 =
          historyRecoveryGlobalAttemptCount t + 1 := by
        rw [historyRecoveryGlobalAttemptCount, attemptCount, hrow]
        rfl
      rw [List.filter_cons_of_pos hgrant, hcount, List.length_cons]
      omega
    · rw [List.filter_cons_of_neg (by simp [hrefused]), globalAttemptCount_congr hrow]

/-- Times that lie at least `gap` apart: no more than `n` of them within `n` gaps. -/
theorem length_le_of_spaced {gap : Time} (times : List Time)
    (hspaced : times.Pairwise fun a b => a + gap ≤ b) (n : ℕ) (start : Time)
    (hwindow : ∀ a ∈ times, start ≤ a ∧ a < start + gap * n) : times.length ≤ n := by
  induction times generalizing n start with
  | nil => exact Nat.zero_le n
  | cons a rest ih =>
    obtain ⟨hlater, hrest⟩ := List.pairwise_cons.mp hspaced
    obtain ⟨hfrom, hto⟩ := hwindow a List.mem_cons_self
    cases n with
    | zero =>
      simp only [Nat.cast_zero, mul_zero, add_zero] at hto
      linarith
    | succ m =>
      have hshort : rest.length ≤ m := by
        refine ih hrest m (start + gap) ?_
        intro b hb
        have hgap := hlater b hb
        have hend := (hwindow b (List.mem_cons_of_mem a hb)).2
        push_cast at hend
        constructor <;> linarith
      exact Nat.succ_le_succ hshort

def grantsWithin (t : Attempts) (run : List Call) (start stop : Time) :
    List (Event Attempts Call Bool) :=
  (grants t run).filter fun e => decide (start ≤ e.input.now) && decide (e.input.now < stop)

/-- Whatever the processes interleave and whatever their clocks say, the granted read slots lie
apart by their lengths, no more than one falls in each minute of a window, and the pace row
counts them. -/
theorem slots_paced (t : Attempts) (run : List Call) (hrun : Meets step NamesTurn t run) :
    ((grants t run).Pairwise fun e e' => e.input.now + slotSeconds e ≤ e'.input.now) ∧
      (∀ (start : Time) (minutes : ℕ),
        (grantsWithin t run start (start + 60 * minutes)).length ≤ minutes) ∧
      historyRecoveryGlobalAttemptCount (final step t run) =
        historyRecoveryGlobalAttemptCount t + (grants t run).length := by
  have hspaced := (grants_after t run hrun).2
  refine ⟨hspaced, ?_, grants_counted t run hrun⟩
  intro start minutes
  have hminute : (grants t run).Pairwise fun e e' => e.input.now + 60 ≤ e'.input.now := by
    refine hspaced.imp_of_mem ?_
    intro e e' he _ hgap
    have hgranted : granted e = true := (List.mem_filter.mp he).2
    have hlong := minute_le_slotSeconds hgranted
    linarith
  have hwindow : ((grantsWithin t run start (start + 60 * minutes)).map fun e =>
      e.input.now).Pairwise fun a b => a + 60 ≤ b :=
    List.pairwise_map.mpr (hminute.filter _)
  have hlength := length_le_of_spaced _ hwindow minutes start ?_
  · simpa using hlength
  · intro a ha
    obtain ⟨e, he, rfl⟩ := List.mem_map.mp ha
    simpa using (List.mem_filter.mp he).2

def twoReaders : List Call :=
  [⟨0, .reserve .manual⟩, ⟨30, .reserve .history⟩, ⟨30, .attempt "run-1"⟩, ⟨40, .pause 0⟩,
    ⟨60, .reserve .history⟩]

theorem twoReaders_named : Meets step NamesTurn Table.empty twoReaders := by
  have hreserve : ∀ (t : Attempts) (now : Time) (kind : ReadKind),
      NamesTurn t ⟨now, .reserve kind⟩ := fun t now kind sendId h => by cases h
  have hpause : ∀ (t : Attempts) (now : Time) (failures : ℕ),
      NamesTurn t ⟨now, .pause failures⟩ := fun t now failures sendId h => by cases h
  have hattempt : ∀ (t : Attempts) (now : Time), NamesTurn t ⟨now, .attempt "run-1"⟩ := by
    intro t now sendId h
    cases h
    rfl
  exact ⟨hreserve _ _ _, hreserve _ _ _, hattempt _ _, hpause _ _ _, hreserve _ _ _, trivial⟩

theorem slots_paced_twoReaders :
    ((grants Table.empty twoReaders).Pairwise fun e e' =>
      e.input.now + slotSeconds e ≤ e'.input.now) ∧
      (∀ (start : Time) (minutes : ℕ),
        (grantsWithin Table.empty twoReaders start (start + 60 * minutes)).length ≤ minutes) ∧
      historyRecoveryGlobalAttemptCount (final step Table.empty twoReaders) =
        historyRecoveryGlobalAttemptCount Table.empty +
          (grants Table.empty twoReaders).length :=
  slots_paced Table.empty twoReaders twoReaders_named

def pausesFor : Call → Option (Time × ℕ)
  | ⟨now, .pause failures⟩ => some (now, failures)
  | _ => none

/-- The security challenges of a run, the last one first. -/
def challenges (run : List Call) : List (Time × ℕ) := (run.filterMap pausesFor).reverse

def pauseEnd (c : Time × ℕ) : Time := c.1 + challengePause c.2

/-- The challenges up to a time, back to the first day without one. -/
def recentChallenges : List (Time × ℕ) → Time → ℕ
  | [], _ => 0
  | c :: earlier, now => if daySeconds ≤ now - c.1 then 0 else recentChallenges earlier c.1 + 1

def lastEnd : Time × ℕ → List (Time × ℕ) → Time
  | c, [] => pauseEnd c
  | c, d :: earlier => max (lastEnd d earlier) (pauseEnd c)

def securityRow : List (Time × ℕ) → Option Attempt
  | [] => none
  | c :: earlier =>
    some ⟨securityPause, recentChallenges earlier c.1 + 1, lastEnd c earlier, c.1⟩

def isAttemptOf (sendId : String) (call : Call) : Bool :=
  match call.write with
  | .attempt other => decide (other = sendId)
  | _ => false

theorem lt_lastEnd_iff (now : Time) (c : Time × ℕ) (earlier : List (Time × ℕ)) :
    now < lastEnd c earlier ↔ ∃ d ∈ c :: earlier, now < pauseEnd d := by
  induction earlier generalizing c with
  | nil => simp [lastEnd]
  | cons d earlier ih =>
    simp only [lastEnd, lt_max_iff, ih, List.exists_mem_cons_iff]
    exact or_comm

theorem challenges_append (run : List Call) (call : Call) :
    challenges (run ++ [call]) = (pausesFor call).toList ++ challenges run := by
  unfold challenges
  rw [List.filterMap_append, List.reverse_append]
  cases h : pausesFor call <;> simp [List.filterMap, h]

theorem step_security_ne (t : Attempts) (call : Call) (hturn : NamesTurn t call)
    (h : pausesFor call = none) :
    (step t call).1.lookup securityPause = t.lookup securityPause := by
  obtain ⟨now, write⟩ := call
  cases write with
  | reserve kind => exact reserve_lookup_ne t now _ sentinels_differ
  | attempt sendId =>
    exact schedule_lookup_ne t sendId none now (ne_of_isSentinel rfl (hturn sendId rfl))
  | pause failures => cases h

/-- A pause adds its challenge to those the row stands for. -/
theorem pause_security (t : Attempts) (now : Time) (failures : ℕ) (earlier : List (Time × ℕ))
    (h : t.lookup securityPause = securityRow earlier) :
    (step t ⟨now, .pause failures⟩).1.lookup securityPause =
      securityRow ((now, failures) :: earlier) := by
  have hself := Table.lookup_upsert_self t
    ⟨securityPause, 1, now + challengePause failures, now⟩ (fun _ => true)
    (pausedRow (now + challengePause failures) now) (fun _ => id rfl)
  refine hself.trans ?_
  rw [h]
  cases earlier with
  | nil => rfl
  | cons c earlier =>
    simp only [securityRow, Option.elim_some, if_true, pausedRow, recentChallenges, lastEnd,
      pauseEnd]
    by_cases hday : c.1 ≤ now - daySeconds
    · have hold : daySeconds ≤ now - c.1 := by linarith
      simp [hday, hold]
    · have hrecent : ¬daySeconds ≤ now - c.1 := by
        intro hold
        exact hday (by linarith)
      simp [hday, hrecent]

theorem security_of_run (run : List Call) (hrun : Meets step NamesTurn Table.empty run) :
    (final step Table.empty run).lookup securityPause = securityRow (challenges run) := by
  induction run using List.reverseRecOn with
  | nil => rfl
  | append_singleton run call ih =>
    obtain ⟨hbefore, hcall, _⟩ := (meets_append step NamesTurn _ run [call]).mp hrun
    have hrow := ih hbefore
    rw [final_append, challenges_append]
    obtain ⟨now, write⟩ := call
    cases write with
    | pause failures => exact pause_security _ now failures _ hrow
    | reserve kind => exact (step_security_ne _ _ hcall rfl).trans hrow
    | attempt sendId => exact (step_security_ne _ _ hcall rfl).trans hrow

theorem remaining_pos_iff {row : Option Attempt} {now : Time} (hnow : 0 ≤ now) :
    0 < max 0 (row.elim 0 Attempt.nextAttemptAt - now) ↔
      ∃ r, row = some r ∧ now < r.nextAttemptAt := by
  rw [lt_max_iff, sub_pos]
  cases row with
  | none => simpa using hnow
  | some r => simp

/-- Reads are paused exactly while the pause of some challenge lasts. -/
theorem paused_iff (run : List Call) (hrun : Meets step NamesTurn Table.empty run) {now : Time}
    (hnow : 0 ≤ now) :
    0 < historyRecoverySecurityPauseRemaining (final step Table.empty run) now ↔
      ∃ c ∈ challenges run, now < pauseEnd c := by
  rw [historyRecoverySecurityPauseRemaining, remaining_pos_iff hnow, security_of_run run hrun]
  cases challenges run with
  | nil => simp [securityRow]
  | cons c earlier =>
    rw [← lt_lastEnd_iff]
    simp [securityRow]

theorem failures_eq (run : List Call) (hrun : Meets step NamesTurn Table.empty run) (now : Time) :
    historyRecoverySecurityFailures (final step Table.empty run) now =
      recentChallenges (challenges run) now := by
  rw [historyRecoverySecurityFailures, security_of_run run hrun]
  cases challenges run <;> rfl

/-- A slot that was granted keeps the pace row's deadline at its own end or behind. -/
theorem paced_iff (t : Attempts) (run : List Call) (hrun : Meets step NamesTurn t run)
    (now : Time) :
    (∃ r, (final step t run).lookup globalPacing = some r ∧ now < r.nextAttemptAt) ↔
      (∃ r, t.lookup globalPacing = some r ∧ now < r.nextAttemptAt) ∨
        ∃ e ∈ grants t run, now < e.input.now + slotSeconds e := by
  induction run generalizing t with
  | nil => simp [final, grants, events]
  | cons call rest ih =>
    rw [final, ih (step t call).1 hrun.2]
    unfold grants
    rw [events_cons]
    rcases pace_step t call hrun.1 with ⟨hgrant, hopen, hrow⟩ | ⟨hrefused, hrow⟩
    · rw [List.filter_cons_of_pos hgrant, List.exists_mem_cons_iff, hrow]
      have hlong := minute_le_slotSeconds hgrant
      constructor
      · rintro (⟨r, hr, hbefore⟩ | hlater)
        · cases hr
          exact Or.inr (Or.inl hbefore)
        · exact Or.inr (Or.inr hlater)
      · rintro (⟨r, hr, hbefore⟩ | hbefore | hlater)
        · have hdue := hopen r hr
          refine Or.inl ⟨_, rfl, ?_⟩
          dsimp only
          linarith
        · exact Or.inl ⟨_, rfl, hbefore⟩
        · exact Or.inr hlater
    · rw [List.filter_cons_of_neg (by simp [hrefused]), hrow]

/-- A new attempt counts one for its own turn. -/
theorem attemptCount_schedule (t : Attempts) (sendId : String) (deadline : Option Time)
    (now : Time) (k : String) :
    attemptCount (scheduleHistoryRecovery t sendId deadline now) k =
      attemptCount t k + if sendId = k then 1 else 0 := by
  unfold attemptCount
  by_cases h : sendId = k
  · subst h
    have hself := Table.lookup_upsert_self t
      ⟨sendId, 1, if isSentinel sendId then deadline.getD now else now, now⟩ (fun _ => true)
      (scheduledRow (if isSentinel sendId then deadline.getD now else now) now) (fun _ => id rfl)
    refine (congrArg (fun row : Option Attempt => row.elim 0 Attempt.attemptCount) hself).trans ?_
    cases t.lookup sendId <;> simp [scheduledRow]
  · rw [schedule_lookup_ne t sendId deadline now (Ne.symm h), if_neg h, add_zero]

theorem step_attemptCount (t : Attempts) (call : Call) {k : String} (hk : isSentinel k = false) :
    attemptCount (step t call).1 k = attemptCount t k + if isAttemptOf k call then 1 else 0 := by
  have hsentinel : ∀ {j}, isSentinel j = true → k ≠ j := fun hj =>
    (ne_of_isSentinel hj hk).symm
  obtain ⟨now, write⟩ := call
  cases write with
  | attempt sendId =>
    refine (attemptCount_schedule t sendId none now k).trans ?_
    simp [isAttemptOf]
  | reserve kind =>
    exact congrArg (fun row : Option Attempt => row.elim 0 Attempt.attemptCount)
      (reserve_lookup_ne t now _ (hsentinel rfl))
  | pause failures =>
    exact congrArg (fun row : Option Attempt => row.elim 0 Attempt.attemptCount)
      (pause_lookup_ne t _ now (hsentinel rfl))

theorem attempts_counted (t : Attempts) (run : List Call) {k : String}
    (hk : isSentinel k = false) :
    attemptCount (final step t run) k = attemptCount t k + run.countP (isAttemptOf k) := by
  induction run generalizing t with
  | nil => rfl
  | cons call rest ih =>
    rw [final, ih, step_attemptCount t call hk, List.countP_cons]
    omega

/-- The row of a sentinel holds reads back until a time or longer. -/
def HoldsUntil (t : Attempts) (sentinel : String) (until_ : Time) : Prop :=
  ∃ row, t.lookup sentinel = some row ∧ until_ ≤ row.nextAttemptAt

theorem step_pace_kept (t : Attempts) (call : Call) (hturn : NamesTurn t call) {until_ : Time}
    (h : HoldsUntil t globalPacing until_) : HoldsUntil (step t call).1 globalPacing until_ := by
  obtain ⟨row, hrow, hlate⟩ := h
  rcases pace_step t call hturn with ⟨hgrant, hopen, hnew⟩ | ⟨_, hsame⟩
  · have hdue := hopen row hrow
    have hlong := minute_le_slotSeconds hgrant
    refine ⟨_, hnew, ?_⟩
    dsimp only
    linarith
  · exact ⟨row, hsame.trans hrow, hlate⟩

theorem pause_holds (t : Attempts) (until_ now : Time) :
    HoldsUntil (pauseHistoryRecoverySecurity t until_ now) securityPause until_ := by
  have hself := Table.lookup_upsert_self t ⟨securityPause, 1, until_, now⟩ (fun _ => true)
    (pausedRow until_ now) (fun _ => id rfl)
  refine ⟨_, hself, ?_⟩
  cases t.lookup securityPause with
  | none => exact le_refl until_
  | some old => exact le_max_right _ _

theorem step_pause_kept (t : Attempts) (call : Call) (hturn : NamesTurn t call) {until_ : Time}
    (h : HoldsUntil t securityPause until_) : HoldsUntil (step t call).1 securityPause until_ := by
  obtain ⟨row, hrow, hlate⟩ := h
  obtain ⟨now, write⟩ := call
  cases write with
  | pause failures =>
    have hself := Table.lookup_upsert_self t
      ⟨securityPause, 1, now + challengePause failures, now⟩ (fun _ => true)
      (pausedRow (now + challengePause failures) now) (fun _ => id rfl)
    refine ⟨_, hself, ?_⟩
    rw [hrow]
    exact hlate.trans (le_max_left _ _)
  | reserve kind => exact ⟨row, (step_security_ne t _ hturn rfl).trans hrow, hlate⟩
  | attempt sendId => exact ⟨row, (step_security_ne t _ hturn rfl).trans hrow, hlate⟩

/-- Neither hold gets shorter in a run. -/
theorem holds_kept (t : Attempts) (run : List Call) (hrun : Meets step NamesTurn t run)
    {sentinel : String} (hsentinel : isSentinel sentinel = true) {until_ : Time}
    (h : HoldsUntil t sentinel until_) : HoldsUntil (final step t run) sentinel until_ := by
  have hname : sentinel = globalPacing ∨ sentinel = securityPause := by
    simpa [isSentinel] using hsentinel
  refine meets_invariant step NamesTurn (fun u => HoldsUntil u sentinel until_) ?_ t h run hrun
  intro u call hcall hu
  rcases hname with rfl | rfl
  · exact step_pace_kept u call hcall hu
  · exact step_pause_kept u call hcall hu

/-- From an empty table, the four readings of the table after any run, as facts about the calls
made: a pause lasts while the pause of some challenge does, the pace while some granted slot
does, the failures are the challenges without a day between them, and each turn's count is the
number of its reads. -/
theorem table_tells_calls (run : List Call) (hrun : Meets step NamesTurn Table.empty run)
    (now : Time) (hnow : 0 ≤ now) :
    (0 < historyRecoverySecurityPauseRemaining (final step Table.empty run) now ↔
      ∃ c ∈ challenges run, now < pauseEnd c) ∧
    (0 < historyRecoveryGlobalPaceRemaining (final step Table.empty run) now ↔
      ∃ e ∈ grants Table.empty run, now < e.input.now + slotSeconds e) ∧
    historyRecoverySecurityFailures (final step Table.empty run) now =
      recentChallenges (challenges run) now ∧
    ∀ sendId, isSentinel sendId = false →
      attemptCount (final step Table.empty run) sendId = run.countP (isAttemptOf sendId) := by
  refine ⟨paused_iff run hrun hnow, ?_, failures_eq run hrun now, ?_⟩
  · rw [historyRecoveryGlobalPaceRemaining, remaining_pos_iff hnow, paced_iff _ run hrun now]
    simp
  · intro sendId hturn
    rw [attempts_counted _ run hturn]
    exact Nat.zero_add _

theorem table_tells_twoReaders :
    (0 < historyRecoverySecurityPauseRemaining (final step Table.empty twoReaders) 100 ↔
      ∃ c ∈ challenges twoReaders, 100 < pauseEnd c) ∧
    (0 < historyRecoveryGlobalPaceRemaining (final step Table.empty twoReaders) 100 ↔
      ∃ e ∈ grants Table.empty twoReaders, 100 < e.input.now + slotSeconds e) ∧
    historyRecoverySecurityFailures (final step Table.empty twoReaders) 100 =
      recentChallenges (challenges twoReaders) 100 ∧
    ∀ sendId, isSentinel sendId = false →
      attemptCount (final step Table.empty twoReaders) sendId =
        twoReaders.countP (isAttemptOf sendId) :=
  table_tells_calls twoReaders twoReaders_named 100 (by norm_num)

end Prompta.RecoveryAttempts
