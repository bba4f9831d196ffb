import Mathlib.Tactic.Ring
import Prompta.RateLimits

/-!
The backoff over restarts. Every process restores what the one before it has saved, and counts
by a monotonic clock of its own, which runs as the wall clock does from an origin that no other
process knows. What a chain of processes carries on is the end of the block and the time of the
last limit, both by the wall clock.
-/
namespace Prompta.BackoffChains

open RateLimits Texts

section Clocks

def snapshotRateLimitBackoff (state : RateLimitState) (now wallTime : Time) : Snapshot where
  attempts := state.attempts
  blockedUntilEpoch := wallTime + remaining state now
  lastLimitedAtEpoch :=
    wallTime - if state.attempts ≠ 0 then max 0 (now - state.lastLimitedAt) else 0

def leftAt (saved : Snapshot) (wallTime : Time) : Time :=
  max 0 (saved.blockedUntilEpoch - wallTime)

def limitedAgeAt (saved : Snapshot) (wallTime : Time) : Time :=
  if saved.lastLimitedAtEpoch ≠ 0 then max 0 (wallTime - saved.lastLimitedAtEpoch) else 0

def restoreRateLimitBackoff (policy : Policy) (saved : Snapshot) (now wallTime : Time) :
    RateLimitState :=
  if saved.attempts = 0 ∨
      (leftAt saved wallTime ≤ 0 ∧ policy.resetSeconds ≤ limitedAgeAt saved wallTime) then
    {}
  else
    { attempts := saved.attempts
      blockedUntil := now + leftAt saved wallTime
      lastLimitedAt := now - limitedAgeAt saved wallTime }

end Clocks

/-- A process between two restarts, by the wall clock. -/
structure Process where
  origin : Time
  restoredAt : Time
  savedAt : Time

def Process.monotonic (p : Process) (wallTime : Time) : Time := wallTime - p.origin

def carry (policy : Policy) (saved : Snapshot) (p : Process) : Snapshot :=
  snapshotRateLimitBackoff
    (restoreRateLimitBackoff policy saved (p.monotonic p.restoredAt) p.restoredAt)
    (p.monotonic p.savedAt) p.savedAt

/-- The wall clock does not go back, from the time `t` on. -/
def Ordered (t : Time) : List Process → Prop
  | [] => True
  | p :: rest => t ≤ p.restoredAt ∧ p.restoredAt ≤ p.savedAt ∧ Ordered p.savedAt rest

def lastSaved (t : Time) : List Process → Time
  | [] => t
  | p :: rest => lastSaved p.savedAt rest

/-- No restore of the chain finds the block expired. -/
def Unexpired (policy : Policy) (saved : Snapshot) : List Process → Prop
  | [] => True
  | p :: rest => 0 < leftAt saved p.restoredAt ∧ Unexpired policy (carry policy saved p) rest

def limitedAge (state : RateLimitState) (now : Time) : Time := max 0 (now - state.lastLimitedAt)

section Chains

variable {policy : Policy} {saved : Snapshot} {attempts : ℕ} {blocked limited t : Time}

/-- What a chain has carried on to the time `t`. A block that has ended by then is not told. -/
structure Carried (saved : Snapshot) (attempts : ℕ) (blocked limited t : Time) : Prop where
  counted : saved.attempts = attempts
  until_epoch : saved.blockedUntilEpoch = blocked ∨ saved.blockedUntilEpoch ≤ t
  last_epoch : saved.lastLimitedAtEpoch = limited

/-- A snapshot carries the end of the block and the time of the limit on the wall clock. -/
theorem carried_snapshot (state : RateLimitState) (now wallTime : Time)
    (hattempts : state.attempts ≠ 0) :
    Carried (snapshotRateLimitBackoff state now wallTime) state.attempts
      (wallTime + remaining state now) (wallTime - limitedAge state now) wallTime := by
  refine ⟨rfl, Or.inl rfl, ?_⟩
  show wallTime - (if state.attempts ≠ 0 then _ else _) = _
  rw [if_pos hattempts]
  rfl

/-- A block that is still on is restored to the end that was saved first. -/
theorem Carried.blocked_eq (h : Carried saved attempts blocked limited t) {wallTime : Time}
    (ht : t ≤ wallTime) (hleft : 0 < leftAt saved wallTime) :
    saved.blockedUntilEpoch = blocked ∧ leftAt saved wallTime = blocked - wallTime := by
  have hopen : 0 < saved.blockedUntilEpoch - wallTime := by
    rcases lt_max_iff.mp hleft with h0 | h0
    · exact absurd h0 (lt_irrefl 0)
    · exact h0
  rcases h.until_epoch with hsame | hended
  · refine ⟨hsame, ?_⟩
    unfold leftAt
    rw [max_eq_right hopen.le, hsame]
  · linarith

/-- What a restore makes of a block that has not run out. -/
theorem Carried.restore_eq (h : Carried saved attempts blocked limited t) {now wallTime : Time}
    (hattempts : attempts ≠ 0) (hlimited : limited ≠ 0) (hbefore : limited ≤ t) (ht : t ≤ wallTime)
    (hleft : 0 < leftAt saved wallTime) :
    restoreRateLimitBackoff policy saved now wallTime =
      { attempts := attempts
        blockedUntil := now + (blocked - wallTime)
        lastLimitedAt := now - (wallTime - limited) } := by
  have hopen : ¬(saved.attempts = 0 ∨
      (leftAt saved wallTime ≤ 0 ∧ policy.resetSeconds ≤ limitedAgeAt saved wallTime)) := by
    rintro (hnone | ⟨hexpired, -⟩)
    · exact hattempts (h.counted.symm.trans hnone)
    · linarith
  have hage : limitedAgeAt saved wallTime = wallTime - limited := by
    unfold limitedAgeAt
    rw [h.last_epoch, if_pos hlimited, max_eq_right (by linarith)]
  unfold restoreRateLimitBackoff
  rw [if_neg hopen, h.counted, (h.blocked_eq ht hleft).2, hage]

/-- The origin of the monotonic clock of a process cancels out. -/
theorem Carried.carry (h : Carried saved attempts blocked limited t) {p : Process}
    (hattempts : attempts ≠ 0) (hlimited : limited ≠ 0) (hbefore : limited ≤ t)
    (ht : t ≤ p.restoredAt) (hsaved : p.restoredAt ≤ p.savedAt)
    (hleft : 0 < leftAt saved p.restoredAt) :
    Carried (carry policy saved p) attempts blocked limited p.savedAt := by
  unfold BackoffChains.carry
  rw [h.restore_eq hattempts hlimited hbefore ht hleft]
  refine ⟨rfl, ?_, ?_⟩
  · show p.savedAt + max 0 (p.monotonic p.restoredAt + (blocked - p.restoredAt) -
      p.monotonic p.savedAt) = blocked ∨ _ ≤ p.savedAt
    have hcancel : p.monotonic p.restoredAt + (blocked - p.restoredAt) - p.monotonic p.savedAt =
        blocked - p.savedAt := by
      unfold Process.monotonic
      ring
    rw [hcancel]
    by_cases hon : p.savedAt ≤ blocked
    · left
      rw [max_eq_right (by linarith)]
      ring
    · right
      show p.savedAt + max 0 (p.monotonic p.restoredAt + (blocked - p.restoredAt) -
        p.monotonic p.savedAt) ≤ p.savedAt
      rw [hcancel, max_eq_left (by linarith)]
      linarith
  · show p.savedAt - (if attempts ≠ 0 then
      max 0 (p.monotonic p.savedAt - (p.monotonic p.restoredAt - (p.restoredAt - limited)))
      else 0) = limited
    have hcancel : p.monotonic p.savedAt - (p.monotonic p.restoredAt - (p.restoredAt - limited)) =
        p.savedAt - limited := by
      unfold Process.monotonic
      ring
    rw [if_pos hattempts, hcancel, max_eq_right (by linarith)]
    ring

/-- By induction on the processes: the block ends at the same time of the wall clock, whoever saves
it. -/
theorem Carried.chain (processes : List Process)
    (h : Carried saved attempts blocked limited t) (hattempts : attempts ≠ 0)
    (hlimited : limited ≠ 0) (hbefore : limited ≤ t) (hordered : Ordered t processes)
    (hunexpired : Unexpired policy saved processes) :
    Carried (processes.foldl (BackoffChains.carry policy) saved) attempts blocked limited
        (lastSaved t processes) ∧ limited ≤ lastSaved t processes := by
  induction processes generalizing saved t with
  | nil => exact ⟨h, hbefore⟩
  | cons p rest ih =>
    obtain ⟨hrestored, hsaved, hrest⟩ := hordered
    obtain ⟨hleft, hlater⟩ := hunexpired
    have hnext : Carried (BackoffChains.carry policy saved p) attempts blocked limited p.savedAt :=
      h.carry hattempts hlimited hbefore hrestored hsaved hleft
    exact ih hnext (by linarith) hrest hlater

end Chains

/-- The backoff survives restarts: after any chain of them the block ends when it was to end, and
the attempts and the time of the last limit are those of the first state. A last limit at the
time 0 of the wall clock is left out: the saved value 0 tells that there was none. -/
theorem backoff_survives (policy : Policy) (state : RateLimitState) (now wallTime : Time)
    (processes : List Process) (now' wallTime' : Time) (hattempts : 0 < state.attempts)
    (hlimited : limitedAge state now ≠ wallTime)
    (hordered : Ordered wallTime processes) (hlast : lastSaved wallTime processes ≤ wallTime')
    (hunexpired : Unexpired policy (snapshotRateLimitBackoff state now wallTime) processes)
    (hleft : 0 < leftAt (processes.foldl (carry policy)
      (snapshotRateLimitBackoff state now wallTime)) wallTime') :
    let restored := restoreRateLimitBackoff policy
      (processes.foldl (carry policy) (snapshotRateLimitBackoff state now wallTime)) now' wallTime'
    remaining restored now' = remaining state now - (wallTime' - wallTime) ∧
      restored.attempts = state.attempts ∧
      limitedAge restored now' = limitedAge state now + (wallTime' - wallTime) := by
  have hage : 0 ≤ limitedAge state now := le_max_left 0 _
  have hstart := carried_snapshot state now wallTime hattempts.ne'
  have hne : wallTime - limitedAge state now ≠ 0 := by
    intro hzero
    exact hlimited (by linarith)
  obtain ⟨hchain, hbefore⟩ :=
    hstart.chain processes hattempts.ne' hne (by linarith) hordered hunexpired
  have hblocked := (hchain.blocked_eq hlast hleft).2
  dsimp only
  rw [hchain.restore_eq hattempts.ne' hne hbefore hlast hleft]
  rw [hblocked] at hleft
  refine ⟨?_, rfl, ?_⟩
  · show max 0 (now' + (wallTime + remaining state now - wallTime') - now') = _
    rw [max_eq_right (by linarith)]
    ring
  · show max 0 (now' - (now' - (wallTime' - (wallTime - limitedAge state now)))) = _
    rw [max_eq_right (by linarith)]
    ring

/-- Two attempts, a block of 20 minutes, the last limit a minute ago. -/
def limitedTwice : RateLimitState := { attempts := 2, blockedUntil := 1300, lastLimitedAt := 40 }

theorem backoff_survives_restart :
    let restored := restoreRateLimitBackoff {} ([⟨4000, 5010, 5020⟩].foldl (carry {})
      (snapshotRateLimitBackoff limitedTwice 100 5000)) 7 5100
    remaining restored 7 = remaining limitedTwice 100 - (5100 - 5000) ∧
      restored.attempts = limitedTwice.attempts ∧
      limitedAge restored 7 = limitedAge limitedTwice 100 + (5100 - 5000) := by
  refine backoff_survives {} limitedTwice 100 5000 [⟨4000, 5010, 5020⟩] 7 5100 ?_ ?_ ?_ ?_ ?_ ?_
  · decide
  · decide +kernel
  · exact ⟨by norm_num, by norm_num, trivial⟩
  · show (5020 : Time) ≤ 5100
    norm_num
  · exact ⟨by decide +kernel, trivial⟩
  · decide +kernel

/-- A last limit at the time 0 of the wall clock is forgotten. -/
theorem epoch_zero_forgotten :
    let state : RateLimitState := { attempts := 1, blockedUntil := 200, lastLimitedAt := 0 }
    let restored :=
      restoreRateLimitBackoff {} (snapshotRateLimitBackoff state 100 100) 5 110
    0 < leftAt (snapshotRateLimitBackoff state 100 100) 110 ∧ limitedAge restored 5 = 0 ∧
      limitedAge restored 5 ≠ limitedAge state 100 + (110 - 100) := by
  decide +kernel

end Prompta.BackoffChains
