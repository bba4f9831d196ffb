import Mathlib.Tactic.Linarith
import Mathlib.Tactic.NormNum
import Prompta.Runs
import Prompta.Texts

/-!
The backoff after a rate limit. It is saved by the wall clock and counted by the monotonic
clock of the process. Attempts are forgotten after a quiet period, and with them a delay of
the server that still runs; nothing else shortens the block.
-/
namespace Prompta.RateLimits

open Runs Texts

def defaultRetryAfter : Time := 5 * 60

def jitterFractionMax : Time := 1 / 10

def jitterCapSeconds : Time := 60

structure Policy where
  capSeconds : Time := 30 * 60
  resetSeconds : Time := 30 * 60

def recoveryRead : Policy := { capSeconds := 15 * 60 }

structure RateLimitState where
  attempts : ℕ := 0
  blockedUntil : Time := 0
  lastLimitedAt : Time := 0
  deriving DecidableEq

/-- The two clocks of a process. The monotonic one counts from the start of the machine. -/
structure Clock where
  now : Time
  wallTime : Time
  now_nonneg : 0 ≤ now

structure Snapshot where
  attempts : ℕ
  blockedUntilEpoch : Time
  lastLimitedAtEpoch : Time
  deriving DecidableEq

def remaining (state : RateLimitState) (now : Time) : Time := max 0 (state.blockedUntil - now)

def snapshot (state : RateLimitState) (clock : Clock) : Snapshot where
  attempts := state.attempts
  blockedUntilEpoch := clock.wallTime + remaining state clock.now
  lastLimitedAtEpoch :=
    clock.wallTime - if state.attempts ≠ 0 then max 0 (clock.now - state.lastLimitedAt) else 0

def Snapshot.limitedAge (saved : Snapshot) (clock : Clock) : Time :=
  if saved.lastLimitedAtEpoch ≠ 0 then max 0 (clock.wallTime - saved.lastLimitedAtEpoch) else 0

def Snapshot.left (saved : Snapshot) (clock : Clock) : Time :=
  max 0 (saved.blockedUntilEpoch - clock.wallTime)

def restore (policy : Policy) (saved : Snapshot) (clock : Clock) : RateLimitState :=
  if saved.attempts = 0 ∨ (saved.left clock ≤ 0 ∧ policy.resetSeconds ≤ saved.limitedAge clock) then
    {}
  else
    { attempts := saved.attempts
      blockedUntil := clock.now + saved.left clock
      lastLimitedAt := clock.now - saved.limitedAge clock }

/-- The exponential step or the delay of the server, whichever is longer. -/
def floorSeconds (policy : Policy) (attempts : ℕ) (retryAfter : Time) : Time :=
  max (min policy.capSeconds (defaultRetryAfter * 2 ^ min (attempts - 1) 20)) (max 0 retryAfter)

def waitSeconds (policy : Policy) (attempts : ℕ) (retryAfter jitterFraction : Time) : Time :=
  let floor := floorSeconds policy attempts retryAfter
  floor + max 0 (min 1 jitterFraction) * min jitterCapSeconds (floor * jitterFractionMax)

/-- Attempts are counted anew after a quiet period. -/
def resets (policy : Policy) (state : RateLimitState) (now : Time) : Bool :=
  decide (state.attempts ≠ 0) && decide (state.lastLimitedAt ≠ 0) &&
    decide (policy.resetSeconds ≤ now - state.lastLimitedAt)

def transition (policy : Policy) (state : RateLimitState) (retryAfter jitterFraction now : Time) :
    RateLimitState :=
  let state := if resets policy state now then {} else state
  { attempts := state.attempts + 1
    blockedUntil :=
      max state.blockedUntil
        (now + waitSeconds policy (state.attempts + 1) retryAfter jitterFraction)
    lastLimitedAt := now }

/-- An observed rate limit. -/
structure Limit where
  retryAfter : Time
  jitterFraction : Time
  extendOnly : Bool := false

def restored (policy : Policy) (saved : Option Snapshot) (clock : Clock) : RateLimitState :=
  match saved with
  | none => {}
  | some saved => restore policy saved clock

/-- The clocks are read once. -/
def recordReadRateLimit (policy : Policy) (saved : Option Snapshot) (limit : Limit)
    (clock : Clock) :
    Snapshot :=
  let backoff := restored policy saved clock
  if limit.extendOnly ∧ 0 < remaining backoff clock.now then
    snapshot { backoff with
      blockedUntil := max backoff.blockedUntil (clock.now + limit.retryAfter) } clock
  else
    snapshot (transition policy backoff limit.retryAfter limit.jitterFraction clock.now) clock

/-- A read that succeeds clears the backoff once its block is over. -/
def recordReadSuccess (policy : Policy) (saved : Option Snapshot) (clock : Clock) :
    Option Snapshot :=
  let backoff := restored policy saved clock
  if backoff.attempts ≠ 0 ∧ remaining backoff clock.now ≤ 0 then some (snapshot {} clock) else saved

inductive ReadEvent
  | limited (limit : Limit) (clock : Clock)
  | succeeded (clock : Clock)

def ReadEvent.wallTime : ReadEvent → Time
  | .limited _ clock => clock.wallTime
  | .succeeded clock => clock.wallTime

def readStep (policy : Policy) (saved : Option Snapshot) : ReadEvent → Option Snapshot × Unit
  | .limited limit clock => (some (recordReadRateLimit policy saved limit clock), ())
  | .succeeded clock => (recordReadSuccess policy saved clock, ())

/-- The limit leaves the block at least as long as it was and as long as the server asks. -/
structure Extends (before : Option Snapshot) (limit : Limit) (clock : Clock)
    (after : Snapshot) : Prop where
  kept : ∀ saved ∈ before, saved.blockedUntilEpoch ≤ after.blockedUntilEpoch
  asked : clock.wallTime + limit.retryAfter ≤ after.blockedUntilEpoch

/-- The limit comes after a quiet period, while the saved block lasts beyond the wait of a
first attempt. -/
structure CutsShort (policy : Policy) (saved : Snapshot) (limit : Limit) (clock : Clock) :
    Prop where
  records : limit.extendOnly = false
  counted : saved.attempts ≠ 0
  known : clock.now ≠ saved.limitedAge clock
  quiet : policy.resetSeconds ≤ saved.limitedAge clock
  blocked : clock.wallTime + waitSeconds policy 1 limit.retryAfter limit.jitterFraction <
    saved.blockedUntilEpoch

theorem floorSeconds_nonneg (policy : Policy) (attempts : ℕ) (retryAfter : Time) :
    0 ≤ floorSeconds policy attempts retryAfter :=
  le_max_of_le_right (le_max_left 0 retryAfter)

/-- A wait is never shorter than the server has asked for. -/
theorem le_waitSeconds (policy : Policy) (attempts : ℕ) (retryAfter jitterFraction : Time) :
    0 ≤ waitSeconds policy attempts retryAfter jitterFraction ∧
      retryAfter ≤ waitSeconds policy attempts retryAfter jitterFraction := by
  have hfloor := floorSeconds_nonneg policy attempts retryAfter
  have hasked : retryAfter ≤ floorSeconds policy attempts retryAfter :=
    le_max_of_le_right (le_max_right 0 retryAfter)
  have hcap : 0 ≤ min jitterCapSeconds
      (floorSeconds policy attempts retryAfter * jitterFractionMax) := by
    apply le_min
    · norm_num [jitterCapSeconds]
    · exact mul_nonneg hfloor (by norm_num [jitterFractionMax])
  have hjitter := mul_nonneg (le_max_left 0 (min 1 jitterFraction)) hcap
  unfold waitSeconds
  constructor
  · linarith
  · linarith

theorem snapshot_blockedUntil (state : RateLimitState) (clock : Clock) (d : Time)
    (h : state.blockedUntil = clock.now + d) (hd : 0 ≤ d) :
    (snapshot state clock).blockedUntilEpoch = clock.wallTime + d := by
  unfold snapshot remaining
  rw [h, add_sub_cancel_left, max_eq_right hd]

theorem Snapshot.left_nonneg (saved : Snapshot) (clock : Clock) : 0 ≤ saved.left clock :=
  le_max_left 0 _

theorem Snapshot.blockedUntil_le (saved : Snapshot) (clock : Clock) :
    saved.blockedUntilEpoch ≤ clock.wallTime + saved.left clock := by
  have h : saved.blockedUntilEpoch - clock.wallTime ≤ saved.left clock := le_max_right 0 _
  linarith

section Limit

variable (policy : Policy) (limit : Limit) (clock : Clock)

/-- A fresh state waits for the first step. -/
theorem transition_fresh (retryAfter jitterFraction : Time) :
    (snapshot (transition policy {} retryAfter jitterFraction clock.now) clock).blockedUntilEpoch =
      clock.wallTime + waitSeconds policy 1 retryAfter jitterFraction := by
  have hwait := (le_waitSeconds policy 1 retryAfter jitterFraction).1
  have hnow := clock.now_nonneg
  refine snapshot_blockedUntil _ clock _ ?_ hwait
  have hsame : (if resets policy {} clock.now then ({} : RateLimitState) else {}) = {} := ite_self _
  unfold transition
  rw [hsame]
  exact max_eq_right (by linarith)

/-- A block of the state is kept unless the attempts are counted anew. -/
theorem transition_blocked (state : RateLimitState) (d retryAfter jitterFraction : Time)
    (hstate : state.blockedUntil = clock.now + d)
    (hcounts : resets policy state clock.now = false) :
    (snapshot (transition policy state retryAfter jitterFraction clock.now)
      clock).blockedUntilEpoch =
      clock.wallTime + max d
        (waitSeconds policy (state.attempts + 1) retryAfter jitterFraction) := by
  have hwait := (le_waitSeconds policy (state.attempts + 1) retryAfter jitterFraction).1
  refine snapshot_blockedUntil _ clock _ ?_ (le_max_of_le_right hwait)
  unfold transition
  rw [hcounts, if_neg Bool.false_ne_true]
  dsimp only
  rw [hstate, max_add_add_left]

/-- The attempts are counted anew. -/
theorem transition_reset (state : RateLimitState) (retryAfter jitterFraction : Time)
    (hcounts : resets policy state clock.now = true) :
    (snapshot (transition policy state retryAfter jitterFraction clock.now)
      clock).blockedUntilEpoch =
      clock.wallTime + waitSeconds policy 1 retryAfter jitterFraction := by
  rw [← transition_fresh]
  unfold transition
  rw [hcounts, if_pos rfl, ite_self]

/-- A limit on a state without a block. -/
theorem extends_fresh (saved : Option Snapshot)
    (hover : ∀ s ∈ saved, s.blockedUntilEpoch ≤ clock.wallTime)
    (hrestored : restored policy saved clock = {}) :
    Extends saved limit clock (recordReadRateLimit policy saved limit clock) := by
  have hnow := clock.now_nonneg
  have hover' : remaining {} clock.now = 0 := max_eq_left (by linarith)
  have hblocked : (recordReadRateLimit policy saved limit clock).blockedUntilEpoch =
      clock.wallTime + waitSeconds policy 1 limit.retryAfter limit.jitterFraction := by
    unfold recordReadRateLimit
    dsimp only
    rw [hrestored, hover', if_neg]
    · exact transition_fresh policy clock limit.retryAfter limit.jitterFraction
    · rintro ⟨_, h⟩
      exact lt_irrefl 0 h
  obtain ⟨hwait, hasked⟩ := le_waitSeconds policy 1 limit.retryAfter limit.jitterFraction
  constructor
  · intro s hs
    have h := hover s hs
    rw [hblocked]
    linarith
  · rw [hblocked]
    linarith

def held (saved : Snapshot) : RateLimitState where
  attempts := saved.attempts
  blockedUntil := clock.now + saved.left clock
  lastLimitedAt := clock.now - saved.limitedAge clock

theorem restore_cases (saved : Snapshot) :
    (saved.attempts = 0 ∨ saved.left clock ≤ 0) ∧ restore policy saved clock = {} ∨
      saved.attempts ≠ 0 ∧ restore policy saved clock = held clock saved := by
  unfold restore
  split
  · rename_i h
    rcases h with h | ⟨h, _⟩
    · exact Or.inl ⟨Or.inl h, rfl⟩
    · exact Or.inl ⟨Or.inr h, rfl⟩
  · rename_i h
    rw [not_or] at h
    exact Or.inr ⟨h.1, rfl⟩

theorem resets_held (saved : Snapshot) :
    resets policy (held clock saved) clock.now = true ↔ saved.attempts ≠ 0 ∧
      clock.now ≠ saved.limitedAge clock ∧ policy.resetSeconds ≤ saved.limitedAge clock := by
  unfold resets held
  rw [Bool.and_eq_true, Bool.and_eq_true, decide_eq_true_eq, decide_eq_true_eq, decide_eq_true_eq,
    sub_sub_cancel, sub_ne_zero, and_assoc]

theorem held_remaining (saved : Snapshot) :
    remaining (held clock saved) clock.now = saved.left clock := by
  unfold remaining held
  rw [add_sub_cancel_left, max_eq_right (saved.left_nonneg clock)]

/-- What a new block of some seconds has to be for the limit to extend the saved one. -/
theorem extends_of_wait {saved : Snapshot} {after : Snapshot} {wait : Time}
    (hblocked : after.blockedUntilEpoch = clock.wallTime + wait)
    (hkept : saved.blockedUntilEpoch ≤ clock.wallTime + wait) (hasked : limit.retryAfter ≤ wait) :
    Extends (some saved) limit clock after := by
  constructor
  · simp only [Option.mem_some_iff, forall_eq']
    rw [hblocked]
    exact hkept
  · rw [hblocked]
    linarith

/-- A limit that only extends leaves the block at least as long as it was. -/
theorem limit_extended {saved : Snapshot}
    (hrestored : restored policy (some saved) clock = held clock saved)
    (hextend : limit.extendOnly = true ∧ 0 < saved.left clock) :
    Extends (some saved) limit clock (recordReadRateLimit policy (some saved) limit clock) := by
  have hblocked : (recordReadRateLimit policy (some saved) limit clock).blockedUntilEpoch =
      clock.wallTime + max (saved.left clock) limit.retryAfter := by
    unfold recordReadRateLimit
    dsimp only
    rw [hrestored, held_remaining, if_pos hextend]
    refine snapshot_blockedUntil _ clock _ ?_ (le_max_of_le_left (saved.left_nonneg clock))
    exact max_add_add_left clock.now (saved.left clock) limit.retryAfter
  have hle := saved.blockedUntil_le clock
  have hkept := le_max_left (saved.left clock) limit.retryAfter
  exact extends_of_wait limit clock hblocked (by linarith) (le_max_right _ _)

/-- Any other limit is a transition of the held block. -/
theorem limit_recorded {saved : Snapshot}
    (hrestored : restored policy (some saved) clock = held clock saved)
    (hextend : ¬ (limit.extendOnly = true ∧ 0 < saved.left clock)) :
    recordReadRateLimit policy (some saved) limit clock =
      snapshot (transition policy (held clock saved) limit.retryAfter limit.jitterFraction
        clock.now) clock := by
  unfold recordReadRateLimit
  dsimp only
  rw [hrestored, held_remaining, if_neg hextend]

/-- While the attempts are counted on, a limit extends the block. -/
theorem limit_counted {saved : Snapshot}
    (hrestored : restored policy (some saved) clock = held clock saved)
    (hextend : ¬ (limit.extendOnly = true ∧ 0 < saved.left clock))
    (hresets : resets policy (held clock saved) clock.now = false) :
    Extends (some saved) limit clock (recordReadRateLimit policy (some saved) limit clock) := by
  have hblocked : (recordReadRateLimit policy (some saved) limit clock).blockedUntilEpoch =
      clock.wallTime + max (saved.left clock) (waitSeconds policy
        ((held clock saved).attempts + 1) limit.retryAfter limit.jitterFraction) := by
    rw [limit_recorded policy limit clock hrestored hextend]
    exact transition_blocked policy clock _ (saved.left clock) limit.retryAfter
      limit.jitterFraction rfl hresets
  have hle := saved.blockedUntil_le clock
  have hkept := le_max_left (saved.left clock) (waitSeconds policy
    ((held clock saved).attempts + 1) limit.retryAfter limit.jitterFraction)
  have hasked := (le_waitSeconds policy ((held clock saved).attempts + 1) limit.retryAfter
    limit.jitterFraction).2
  exact extends_of_wait limit clock hblocked (by linarith) (le_max_of_le_right hasked)

/-- Once the attempts are counted anew, only the wait of a first attempt blocks. -/
theorem limit_reset {saved : Snapshot}
    (hrestored : restored policy (some saved) clock = held clock saved)
    (hextend : ¬ (limit.extendOnly = true ∧ 0 < saved.left clock))
    (hresets : resets policy (held clock saved) clock.now = true) :
    Extends (some saved) limit clock (recordReadRateLimit policy (some saved) limit clock) ↔
      saved.blockedUntilEpoch ≤
        clock.wallTime + waitSeconds policy 1 limit.retryAfter limit.jitterFraction := by
  have hblocked : (recordReadRateLimit policy (some saved) limit clock).blockedUntilEpoch =
      clock.wallTime + waitSeconds policy 1 limit.retryAfter limit.jitterFraction := by
    rw [limit_recorded policy limit clock hrestored hextend]
    exact transition_reset policy clock _ limit.retryAfter limit.jitterFraction hresets
  have hasked := (le_waitSeconds policy 1 limit.retryAfter limit.jitterFraction).2
  constructor
  · intro hextends
    rw [← hblocked]
    exact hextends.kept saved rfl
  · intro hkept
    exact extends_of_wait limit clock hblocked hkept hasked

/-- One limit: the block is extended exactly when it is not cut short. -/
theorem limit_extends_iff (saved : Option Snapshot)
    (hidle : ∀ s ∈ saved, s.attempts = 0 → s.blockedUntilEpoch ≤ clock.wallTime) :
    Extends saved limit clock (recordReadRateLimit policy saved limit clock) ↔
      ∀ s ∈ saved, ¬ CutsShort policy s limit clock := by
  cases saved with
  | none =>
    have h := extends_fresh policy limit clock none (fun s hs => nomatch hs) rfl
    exact iff_of_true h fun s hs => nomatch hs
  | some s =>
    have hle := s.blockedUntil_le clock
    simp only [Option.mem_some_iff, forall_eq'] at hidle ⊢
    rcases restore_cases policy clock s with ⟨hover, hrestored⟩ | ⟨hcounted, hrestored⟩
    · have hblocked : s.blockedUntilEpoch ≤ clock.wallTime := by
        rcases hover with h | h
        · exact hidle h
        · linarith
      have hextends := extends_fresh policy limit clock (some s)
        (by simpa using hblocked) hrestored
      refine iff_of_true hextends fun hcut => ?_
      have hwait := (le_waitSeconds policy 1 limit.retryAfter limit.jitterFraction).1
      have := hcut.blocked
      linarith
    by_cases hextend : limit.extendOnly = true ∧ 0 < s.left clock
    · refine iff_of_true (limit_extended policy limit clock hrestored hextend) fun hcut => ?_
      exact Bool.noConfusion (hextend.1.symm.trans hcut.records)
    cases hresets : resets policy (held clock s) clock.now with
    | false =>
      refine iff_of_true (limit_counted policy limit clock hrestored hextend hresets)
        fun hcut => ?_
      have := (resets_held policy clock s).mpr ⟨hcut.counted, hcut.known, hcut.quiet⟩
      exact Bool.noConfusion (hresets.symm.trans this)
    | true =>
      obtain ⟨_, hknown, hquiet⟩ := (resets_held policy clock s).mp hresets
      have hwait := (le_waitSeconds policy 1 limit.retryAfter limit.jitterFraction).1
      rw [limit_reset policy limit clock hrestored hextend hresets]
      constructor
      · intro hkept hcut
        exact absurd hcut.blocked (not_lt.mpr hkept)
      · intro hnot
        by_contra hlong
        rw [not_le] at hlong
        refine hnot ⟨?_, hcounted, hknown, hquiet, hlong⟩
        by_contra hextendOnly
        rw [Bool.not_eq_false] at hextendOnly
        exact hextend ⟨hextendOnly, by linarith⟩

end Limit

/-- A state without attempts has no block. -/
def Idle (t : Time) (saved : Option Snapshot) : Prop :=
  ∀ s ∈ saved, s.attempts = 0 → s.blockedUntilEpoch ≤ t

theorem idle_step (policy : Policy) (t : Time) (saved : Option Snapshot) (e : ReadEvent)
    (htime : t ≤ e.wallTime) (h : Idle t saved) : Idle e.wallTime (readStep policy saved e).1 := by
  cases e with
  | limited limit clock =>
    intro s hs hattempts
    have hsaved : recordReadRateLimit policy saved limit clock = s := Option.some.inj hs
    exfalso
    unfold recordReadRateLimit at hsaved
    dsimp only at hsaved
    split at hsaved
    · rename_i hextend
      have hcounted : (restored policy saved clock).attempts = 0 := by
        rw [← hattempts, ← hsaved]
        rfl
      have hfresh : restored policy saved clock = {} := by
        cases saved with
        | none => rfl
        | some before =>
          rcases restore_cases policy clock before with ⟨_, hrestored⟩ | ⟨hne, hrestored⟩
          · exact hrestored
          · change (restore policy before clock).attempts = 0 at hcounted
            rw [hrestored] at hcounted
            exact absurd hcounted hne
      have hnow := clock.now_nonneg
      have hover : remaining {} clock.now = 0 := max_eq_left (by linarith)
      rw [hfresh, hover] at hextend
      exact lt_irrefl 0 hextend.2
    · rw [← hsaved] at hattempts
      exact Nat.succ_ne_zero _ hattempts
  | succeeded clock =>
    change Idle clock.wallTime (recordReadSuccess policy saved clock)
    unfold recordReadSuccess
    dsimp only
    split
    · intro s hs _
      have hnow := clock.now_nonneg
      have hover : remaining {} clock.now = 0 := max_eq_left (by linarith)
      obtain rfl := Option.some.inj hs
      unfold snapshot
      rw [hover, add_zero]
    · intro s hs hattempts
      exact le_trans (h s hs hattempts) htime

/-- In any run at times that do not decrease, a rate limit leaves the block at least as long
as it was and as the server asks, exactly when it does not come after a quiet period under a
saved block that lasts beyond the wait of a first attempt. -/
theorem block_extended_iff (policy : Policy) (run : List ReadEvent) (t : Time)
    (htimes : Nondecreasing ReadEvent.wallTime t run) :
    ∀ e ∈ events (readStep policy) none run, ∀ limit clock, e.input = .limited limit clock →
      ((∃ after, e.post = some after ∧ Extends e.pre limit clock after) ↔
        ∀ saved ∈ e.pre, ¬ CutsShort policy saved limit clock) := by
  have hrun : ∀ (run : List ReadEvent) (t : Time) (saved : Option Snapshot), Idle t saved →
      Nondecreasing ReadEvent.wallTime t run →
      ∀ e ∈ events (readStep policy) saved run, Idle e.input.wallTime e.pre := by
    intro run
    induction run with
    | nil => exact fun _ _ _ _ e he => nomatch he
    | cons i rest ih =>
      intro t saved hidle htimes e he
      rcases List.mem_cons.mp he with rfl | he
      · exact fun s hs hattempts => le_trans (hidle s hs hattempts) htimes.1
      · exact ih i.wallTime _ (idle_step policy t saved i htimes.1 hidle) htimes.2 e he
  intro e he limit clock hinput
  have hidle := hrun run t none (fun s hs => nomatch hs) htimes e he
  have hstep := event_step _ _ _ e he
  rw [hinput] at hidle hstep
  have hpost : e.post = some (recordReadRateLimit policy e.pre limit clock) :=
    (congrArg Prod.fst hstep).symm
  rw [← limit_extends_iff policy limit clock e.pre hidle, hpost]
  constructor
  · rintro ⟨after, hafter, hextends⟩
    rw [Option.some.inj hafter]
    exact hextends
  · intro hextends
    exact ⟨_, rfl, hextends⟩

def clockAt (now wallTime : ℕ) : Clock := ⟨now, wallTime, Nat.cast_nonneg now⟩

/-- A delay of three hours, and a short limit within it after `quiet` seconds. -/
def longThenShort (quiet : ℕ) : List ReadEvent :=
  [.limited ⟨10800, 0, false⟩ (clockAt 1000 1800000000),
    .limited ⟨0, 0, false⟩ (clockAt (1000 + quiet) (1800000000 + quiet))]

theorem longThenShort_nondecreasing (quiet : ℕ) :
    Nondecreasing ReadEvent.wallTime 0 (longThenShort quiet) := by
  simp only [Nondecreasing, longThenShort, Timed, ReadEvent.wallTime, clockAt]
  norm_num

/-- A minute later the short limit keeps a block of three hours. -/
theorem block_extended_early :
    ∃ e ∈ events (readStep recoveryRead) none (longThenShort 60), ∃ limit clock before after,
      e.input = .limited limit clock ∧ e.pre = some before ∧ e.post = some after ∧
        Extends (some before) limit clock after := by
  have hextended := block_extended_iff recoveryRead (longThenShort 60) 0
      (longThenShort_nondecreasing 60)
    _ (List.mem_cons_of_mem _ List.mem_cons_self) _ _ rfl
  obtain ⟨after, hpost, hafter⟩ := hextended.mpr (by
    intro saved hsaved hcut
    obtain rfl := Option.some.inj hsaved
    exact absurd hcut.quiet (by decide +kernel))
  exact ⟨_, List.mem_cons_of_mem _ List.mem_cons_self, _, _, _, after, rfl, rfl, hpost, hafter⟩

/-- Half an hour later the short limit ends a block of three hours. -/
theorem server_delay_cut_short :
    Nondecreasing ReadEvent.wallTime 0 (longThenShort 1800) ∧
      ∃ e ∈ events (readStep recoveryRead) none (longThenShort 1800), ∃ before after,
        e.pre = some before ∧ e.post = some after ∧
          after.blockedUntilEpoch = before.blockedUntilEpoch - 8700 := by
  refine ⟨longThenShort_nondecreasing 1800, _, List.mem_cons_of_mem _ List.mem_cons_self, _, _, rfl,
    rfl, ?_⟩
  decide +kernel

end Prompta.RateLimits
