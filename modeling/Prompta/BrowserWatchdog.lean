import Mathlib.Tactic.Linarith
import Prompta.Runs
import Prompta.Schema
import Prompta.ResponseStore

/-!
The browser watchdog and the deployments of one host. Both stop the workers, so both first take
the admission pause, a file that only its creation can take. The watchdog may be killed between
any two operations; its state file says when it last restarted the browser, and its pause lets
the next tick go on with a recovery that was cut off.
-/
namespace Prompta.BrowserWatchdog

open Texts Schema ResponseStore Runs

/-- The owner that the text of the pause file names. -/
inductive Marker
  | recovery
  | deployment (pid : ℕ) (seconds : ℕ)
  deriving DecidableEq, Repr

structure WatchdogState where
  consecutiveFailures : ℕ := 0
  lastRestartAt : Time := 0
  deriving DecidableEq

/-- The numbers in the state file. -/
structure SavedState where
  consecutiveFailures : ℤ
  lastRestartAt : Time
  deriving DecidableEq

def failureThreshold : ℕ := 2

def restartCooldownSeconds : Time := 300

def loadState (saved : Option SavedState) : WatchdogState :=
  match saved with
  | none => {}
  | some data => ⟨data.consecutiveFailures.toNat, max 0 data.lastRestartAt⟩

def saveState (state : WatchdogState) : Option SavedState :=
  some ⟨state.consecutiveFailures, state.lastRestartAt⟩

def decideRestart (state : WatchdogState) (healthy busy : Bool) (now : Time) :
    WatchdogState × Bool :=
  if healthy then ({ state with consecutiveFailures := 0 }, false)
  else
    let failures := state.consecutiveFailures + 1
    ({ state with consecutiveFailures := failures },
      decide (failureThreshold ≤ failures) &&
        decide (restartCooldownSeconds ≤ now - state.lastRestartAt) && !busy)

/-- What the watchdog reads of the databases. A database that cannot be read counts as busy. -/
structure Leases where
  store : Store
  healthReadable : Bool := true
  queueReadable : Bool := true
  chatsReadable : Bool := true
  /-- The delivery worker's activity, and its start when that is a number. -/
  activity : Option (String × Option Time) := none

def dispatchSeconds : Time := 300

/-- The delivery worker is sending, or its start of sending cannot be read. -/
def dispatching (leases : Leases) (now : Time) : Bool :=
  leases.activity.any fun activity =>
    startsWith activity.1 "dispatch:" && activity.2.all fun startedAt =>
      decide (0 ≤ now - startedAt) && decide (now - startedAt < dispatchSeconds)

def leasedDelivery (now : Time) (d : Delivery) : Bool :=
  decide (d.status = .running) && decide (d.leaseOwner ≠ "") && decide (now < d.leaseExpiresAt)

def leasedReply (now : Time) (r : ReplyRow) : Bool :=
  activeReply r.status && decide (r.leaseOwner ≠ "") && decide (now < r.leaseDeadline)

def deliveryInFlight (leases : Leases) (now : Time) : Bool :=
  !leases.healthReadable || dispatching leases now ||
    (!leases.queueReadable || leases.store.queue.rows.any (leasedDelivery now)) ||
    (!leases.chatsReadable || leases.store.chats.replies.rows.any (leasedReply now) ||
      leases.store.chats.results.rows.any (ownedCapture now))

/-- What a tick reads of the browser and its service. -/
structure Reading where
  endpoint : Bool
  renderer : Bool
  serviceActive : Bool
  leases : Leases

/-- The caller of a recovery. -/
inductive Caller
  | check
  | resume
  deriving DecidableEq, Repr

/-- How far a recovery has come, its state with it once the restart is recorded. -/
inductive Stage
  | owned
  | noted
  | recorded
  | stopped
  | restarted
  | responding
  | started
  | verified
  | cleared
  deriving DecidableEq, Repr

inductive Watchdog
  | idle
  | entering (caller : Caller)
  | recovering (caller : Caller) (stage : Stage) (state : WatchdogState)
  | finishing

inductive Deployment
  | absent
  | paused
  | retired
  deriving DecidableEq, Repr

structure Host where
  pause : Option Marker := none
  saved : Option SavedState := none
  watchdog : Watchdog := .idle
  deployment : Deployment := .absent

/-- The operations of a deployment, and the operator's resume. -/
inductive Deploy
  | pause (pid seconds : ℕ)
  | retire
  | serve
  | fail
  | die
  | resume

/-- The operations on the host, one at a time. `advance` is the next operation of the recovery;
it succeeds or raises. -/
inductive Action
  | check (reading : Reading)
  | checkBusy (reading : Reading)
  | resume
  | advance (succeeds : Bool)
  | die
  | deploy (op : Deploy)

structure Call where
  now : Time
  action : Action

inductive Output
  | quiet
  | decided (healthy restarts : Bool)
  | notesRestart
  | stopsWorkers
  | restartsBrowser (notedAt : Time)
  | startsWorkers
  | resumesAdmission
  | deploys

/-- `check_browser`, up to the recovery it may ask for. -/
def checkBrowser (h : Host) (reading : Reading) (now : Time) : Host × Output :=
  let busy := deliveryInFlight reading.leases now
  let healthy := reading.endpoint && (busy || reading.renderer)
  if busy then (h, .quiet)
  else
    let decision := decideRestart (loadState h.saved) healthy busy now
    if decision.2 then
      if reading.serviceActive then
        ({ h with watchdog := .entering .check }, .decided healthy true)
      else
        ({ h with saved := saveState { decision.1 with consecutiveFailures := 0 } },
          .decided healthy false)
    else ({ h with saved := saveState decision.1 }, .decided healthy false)

/-- `check_busy_browser`: failed probes of a busy browser are counted like others. -/
def checkBusyBrowser (h : Host) (reading : Reading) (now : Time) : Host × Output :=
  if h.pause ≠ none ∨ deliveryInFlight reading.leases now = false then (h, .quiet)
  else
    let healthy := reading.endpoint && reading.renderer
    let decision := decideRestart (loadState h.saved) healthy false now
    let kept := { h with saved := saveState decision.1 }
    if decision.2 && reading.serviceActive then
      ({ kept with watchdog := .entering .check }, .decided healthy true)
    else (kept, .decided healthy false)

def resumePendingRecovery (h : Host) (now : Time) : Host × Output :=
  if h.pause = some .recovery ∧
    restartCooldownSeconds ≤ now - (loadState h.saved).lastRestartAt then
    ({ h with watchdog := .entering .resume }, .quiet)
  else (h, .quiet)

/-- The pause is taken, or it is this watchdog's own; another owner's pause ends the tick. -/
def takePause (h : Host) (caller : Caller) : Host × Output :=
  match h.pause with
  | some (.deployment _ _) => ({ h with watchdog := .idle }, .quiet)
  | _ => ({ h with pause := some .recovery, watchdog := .recovering caller .owned {} }, .quiet)

/-- The operation that follows a stage of `recover_crashed_browser`. -/
def advanceStage (h : Host) (caller : Caller) (state : WatchdogState) (now : Time) :
    Stage → Host × Output
  | .owned =>
    let noted := { loadState h.saved with lastRestartAt := now }
    ({ h with saved := saveState noted, watchdog := .recovering caller .noted noted },
      .notesRestart)
  | .noted => ({ h with watchdog := .recovering caller .recorded state }, .quiet)
  | .recorded => ({ h with watchdog := .recovering caller .stopped state }, .stopsWorkers)
  | .stopped =>
    ({ h with watchdog := .recovering caller .restarted state },
      .restartsBrowser state.lastRestartAt)
  | .restarted => ({ h with watchdog := .recovering caller .responding state }, .quiet)
  | .responding => ({ h with watchdog := .recovering caller .started state }, .startsWorkers)
  | .started => ({ h with watchdog := .recovering caller .verified state }, .quiet)
  | .verified =>
    let healthy := { state with consecutiveFailures := 0 }
    ({ h with saved := saveState healthy, watchdog := .recovering caller .cleared healthy },
      .quiet)
  | .cleared =>
    ({ h with pause := none
              watchdog := if caller = .resume then .idle else .finishing }, .resumesAdmission)

def advance (h : Host) (succeeds : Bool) (now : Time) : Host × Output :=
  match h.watchdog with
  | .idle => (h, .quiet)
  | .entering caller => takePause h caller
  | .recovering caller stage state =>
    if succeeds then advanceStage h caller state now stage
    else ({ h with watchdog := .idle }, .quiet)
  | .finishing => ({ h with saved := saveState ⟨0, now⟩, watchdog := .idle }, .quiet)

/-- The tick starts only when the last one has ended. -/
def whenIdle (h : Host) (next : Host × Output) : Host × Output :=
  match h.watchdog with
  | .idle => next
  | _ => (h, .quiet)

/-- `request_pause`: the pause file is created by one process alone. -/
def requestPause (h : Host) (pid seconds : ℕ) : Host × Output :=
  if h.pause = none ∧ h.deployment = .absent then
    ({ h with pause := some (.deployment pid seconds), deployment := .paused }, .quiet)
  else (h, .quiet)

def deployStep (h : Host) : Deploy → Host × Output
  | .pause pid seconds => requestPause h pid seconds
  | .retire =>
    if h.deployment = .paused then ({ h with deployment := .retired }, .deploys) else (h, .quiet)
  | .serve =>
    if h.deployment = .retired then ({ h with pause := none, deployment := .absent }, .deploys)
    else (h, .quiet)
  | .fail =>
    -- Once the workers are stopped, a failure leaves the pause behind.
    if h.deployment = .paused then ({ h with pause := none, deployment := .absent }, .quiet)
    else ({ h with deployment := .absent }, .quiet)
  | .die => ({ h with deployment := .absent }, .quiet)
  | .resume => ({ h with pause := none }, .quiet)

def step (h : Host) (call : Call) : Host × Output :=
  match call.action with
  | .check reading => whenIdle h (checkBrowser h reading call.now)
  | .checkBusy reading => whenIdle h (checkBusyBrowser h reading call.now)
  | .resume => whenIdle h (resumePendingRecovery h call.now)
  | .advance succeeds => advance h succeeds call.now
  | .die => ({ h with watchdog := .idle }, .quiet)
  | .deploy op => deployStep h op

/-- A deployment touches neither the watchdog nor its state file. -/
theorem deployStep_cases (h : Host) (op : Deploy) :
    ∃ pause deployment, (deployStep h op).1 = { h with pause := pause, deployment := deployment } ∧
      ((deployStep h op).2 = .quiet ∨ (deployStep h op).2 = .deploys) := by
  cases op with
  | pause pid seconds =>
    dsimp only [deployStep, requestPause]
    split
    · exact ⟨_, _, rfl, Or.inl rfl⟩
    · exact ⟨h.pause, h.deployment, rfl, Or.inl rfl⟩
  | retire =>
    dsimp only [deployStep]
    split
    · exact ⟨h.pause, _, rfl, Or.inr rfl⟩
    · exact ⟨h.pause, h.deployment, rfl, Or.inl rfl⟩
  | serve =>
    dsimp only [deployStep]
    split
    · exact ⟨_, _, rfl, Or.inr rfl⟩
    · exact ⟨h.pause, h.deployment, rfl, Or.inl rfl⟩
  | fail =>
    dsimp only [deployStep]
    split
    · exact ⟨_, _, rfl, Or.inl rfl⟩
    · exact ⟨h.pause, _, rfl, Or.inl rfl⟩
  | die => exact ⟨h.pause, _, rfl, Or.inl rfl⟩
  | resume => exact ⟨_, h.deployment, rfl, Or.inl rfl⟩

def lastRestart (h : Host) : Time := (loadState h.saved).lastRestartAt

@[simp] theorem load_save_failures (state : WatchdogState) :
    (loadState (saveState state)).consecutiveFailures = state.consecutiveFailures := by
  simp [loadState, saveState]

theorem lastRestart_nonneg (h : Host) : 0 ≤ lastRestart h := by
  unfold lastRestart loadState
  cases h.saved with
  | none => exact le_refl 0
  | some data => exact le_max_left 0 _

/-- The state file read back is the state that was written. -/
theorem load_save (state : WatchdogState) (h : 0 ≤ state.lastRestartAt) :
    loadState (saveState state) = state := by
  simp [loadState, saveState, max_eq_right h]

theorem decideRestart_restart (state : WatchdogState) (healthy busy : Bool) (now : Time) :
    (decideRestart state healthy busy now).1.lastRestartAt = state.lastRestartAt := by
  unfold decideRestart
  split <;> rfl

/-- A restart is decided on the second failed probe in a row at the earliest, five minutes
after the last restart, and never while the caller is busy. -/
theorem decideRestart_true {state : WatchdogState} {healthy busy : Bool} {now : Time}
    (h : (decideRestart state healthy busy now).2 = true) :
    healthy = false ∧ busy = false ∧ failureThreshold ≤ state.consecutiveFailures + 1 ∧
      state.lastRestartAt + restartCooldownSeconds ≤ now := by
  unfold decideRestart at h
  split at h
  · cases h
  · rename_i hhealthy
    simp only [Bool.and_eq_true, decide_eq_true_eq, Bool.not_eq_true'] at h
    refine ⟨by simpa using hhealthy, h.2, h.1.1, ?_⟩
    have hcool := h.1.2
    linarith

/-- The restart that the recovery recorded has not happened yet. -/
def awaitsRestart (h : Host) : Bool :=
  match h.watchdog with
  | .recovering _ .noted _ => true
  | .recovering _ .recorded _ => true
  | .recovering _ .stopped _ => true
  | _ => false

/-- Where the tick stands with the last restart on file: a recovery that is asked for keeps its
distance, and one that recorded its own restart carries what it recorded. -/
def Distance (t last : Time) : Watchdog → Prop
  | .idle => True
  | .entering _ => last + restartCooldownSeconds ≤ t
  | .recovering _ .owned _ => last + restartCooldownSeconds ≤ t
  | .recovering _ _ state => last ≤ t ∧ state.lastRestartAt = last
  | .finishing => last ≤ t

def InStep (t : Time) (h : Host) : Prop := Distance t (lastRestart h) h.watchdog

theorem Distance.mono {t t' last : Time} {w : Watchdog} (h : Distance t last w) (ht : t ≤ t') :
    Distance t' last w := by
  cases w with
  | idle => trivial
  | entering caller => exact le_trans h ht
  | finishing => exact le_trans h ht
  | recovering caller stage state =>
    cases stage
    case owned => exact le_trans h ht
    all_goals exact ⟨h.1.trans ht, h.2⟩

theorem lastRestart_of_saved {h' : Host} {state : WatchdogState} {last : Time}
    (hsaved : h'.saved = saveState state) (hstate : state.lastRestartAt = last) (hlast : 0 ≤ last) :
    lastRestart h' = last := by
  unfold lastRestart
  rw [hsaved, load_save state (hstate ▸ hlast)]
  exact hstate

/-- What a call does to the last restart on file. -/
structure FileStep (h : Host) (now : Time) (next : Host × Output) : Prop where
  mono : lastRestart h ≤ lastRestart next.1
  fresh : awaitsRestart h = false → awaitsRestart next.1 = true →
    lastRestart h + restartCooldownSeconds ≤ lastRestart next.1
  restart : ∀ notedAt, next.2 = .restartsBrowser notedAt → awaitsRestart h = true ∧
    awaitsRestart next.1 = false ∧ notedAt = lastRestart h ∧ lastRestart next.1 = lastRestart h
  inStep : InStep now next.1

def restartOf : Output → Option Time
  | .restartsBrowser notedAt => some notedAt
  | _ => none

/-- A call that records no restart and makes none. -/
theorem FileStep.quiet {h : Host} {now : Time} {next : Host × Output}
    (hlast : lastRestart next.1 = lastRestart h)
    (hawaits : awaitsRestart next.1 = true → awaitsRestart h = true)
    (hout : restartOf next.2 = none) (hstep : InStep now next.1) : FileStep h now next where
  mono := hlast.ge
  fresh hno hyes := by
    rw [hawaits hyes] at hno
    cases hno
  restart notedAt hrestart := by
    rw [hrestart] at hout
    cases hout
  inStep := hstep

theorem inStep_idle {now : Time} {h : Host} (hidle : h.watchdog = .idle) : InStep now h := by
  unfold InStep
  rw [hidle]
  trivial

theorem checkBrowser_file {h : Host} (hidle : h.watchdog = .idle) (reading : Reading)
    (now : Time) : FileStep h now (checkBrowser h reading now) := by
  unfold checkBrowser
  dsimp only
  split
  · exact FileStep.quiet rfl id rfl (inStep_idle hidle)
  split
  · rename_i hdecided
    split
    · exact FileStep.quiet rfl (fun hw => by cases hw) rfl (decideRestart_true hdecided).2.2.2
    · refine FileStep.quiet ?_ id rfl (inStep_idle hidle)
      exact lastRestart_of_saved rfl (decideRestart_restart _ _ _ _) (lastRestart_nonneg h)
  · refine FileStep.quiet ?_ id rfl (inStep_idle hidle)
    exact lastRestart_of_saved rfl (decideRestart_restart _ _ _ _) (lastRestart_nonneg h)

theorem checkBusyBrowser_file {h : Host} (hidle : h.watchdog = .idle) (reading : Reading)
    (now : Time) : FileStep h now (checkBusyBrowser h reading now) := by
  unfold checkBusyBrowser
  split
  · exact FileStep.quiet rfl id rfl (inStep_idle hidle)
  dsimp only
  have hlast : lastRestart { h with saved := saveState (decideRestart (loadState h.saved)
      (reading.endpoint && reading.renderer) false now).1 } = lastRestart h :=
    lastRestart_of_saved rfl (decideRestart_restart _ _ _ _) (lastRestart_nonneg h)
  split
  · rename_i hdecided
    have hfar := (decideRestart_true (Bool.and_eq_true_iff.mp hdecided).1).2.2.2
    refine FileStep.quiet hlast (fun hw => by cases hw) rfl ?_
    change lastRestart _ + restartCooldownSeconds ≤ now
    exact le_of_eq_of_le (congrArg (fun last => last + restartCooldownSeconds) hlast) hfar
  · exact FileStep.quiet hlast id rfl (inStep_idle hidle)

theorem resumePendingRecovery_file {h : Host} (hidle : h.watchdog = .idle) (now : Time) :
    FileStep h now (resumePendingRecovery h now) := by
  unfold resumePendingRecovery
  split
  · rename_i hdue
    refine FileStep.quiet rfl (fun hw => by cases hw) rfl ?_
    have hcool : restartCooldownSeconds ≤ now - lastRestart h := hdue.2
    change lastRestart h + restartCooldownSeconds ≤ now
    linarith
  · exact FileStep.quiet rfl id rfl (inStep_idle hidle)

theorem takePause_file {h : Host} {caller : Caller} {now : Time}
    (hstep : lastRestart h + restartCooldownSeconds ≤ now) :
    FileStep h now (takePause h caller) := by
  unfold takePause
  split
  · exact FileStep.quiet rfl (fun hw => by cases hw) rfl trivial
  · exact FileStep.quiet rfl (fun hw => by cases hw) rfl hstep

/-- What a stage writes to the state file. -/
theorem advanceStage_file {h : Host} {caller : Caller} {stage : Stage} {state : WatchdogState}
    {now : Time} (hw : h.watchdog = .recovering caller stage state) (hstep : InStep now h)
    (hnow : 0 ≤ now) : FileStep h now (advanceStage h caller state now stage) := by
  have hdistance : Distance now (lastRestart h) (.recovering caller stage state) := hw ▸ hstep
  cases stage with
  | owned =>
    have hlast : lastRestart (advanceStage h caller state now .owned).1 = now :=
      lastRestart_of_saved rfl rfl hnow
    have hfar : lastRestart h + restartCooldownSeconds ≤ now := hdistance
    have hlong : 0 ≤ restartCooldownSeconds := by norm_num [restartCooldownSeconds]
    refine ⟨?_, fun _ _ => ?_, fun notedAt hout => ?_, ⟨hlast.le, hlast.symm⟩⟩
    · rw [hlast]
      linarith
    · rw [hlast]
      exact hfar
    · cases hout
  | stopped =>
    refine ⟨le_refl _, fun _ hyes => ?_, fun notedAt hout => ?_, hdistance⟩
    · cases hyes
    obtain rfl : state.lastRestartAt = notedAt := by cases hout; rfl
    refine ⟨?_, rfl, hdistance.2, rfl⟩
    unfold awaitsRestart
    rw [hw]
  | verified =>
    have hlast : lastRestart (advanceStage h caller state now .verified).1 = lastRestart h :=
      lastRestart_of_saved rfl hdistance.2 (lastRestart_nonneg h)
    refine FileStep.quiet hlast (fun hyes => by cases hyes) rfl ?_
    exact ⟨hlast.le.trans hdistance.1, hdistance.2.trans hlast.symm⟩
  | cleared =>
    unfold advanceStage
    by_cases hcaller : caller = .resume
    · refine FileStep.quiet rfl (fun hyes => ?_) rfl ?_
      · simp [awaitsRestart, hcaller] at hyes
      · simp [InStep, hcaller, Distance]
    · refine FileStep.quiet rfl (fun hyes => ?_) rfl ?_
      · simp [awaitsRestart, hcaller] at hyes
      · unfold InStep
        dsimp only
        rw [if_neg hcaller]
        exact hdistance.1
  | noted =>
    refine FileStep.quiet rfl (fun _ => ?_) rfl hdistance
    unfold awaitsRestart
    rw [hw]
  | recorded =>
    refine FileStep.quiet rfl (fun _ => ?_) rfl hdistance
    unfold awaitsRestart
    rw [hw]
  | restarted => exact FileStep.quiet rfl (fun hyes => by cases hyes) rfl hdistance
  | responding => exact FileStep.quiet rfl (fun hyes => by cases hyes) rfl hdistance
  | started => exact FileStep.quiet rfl (fun hyes => by cases hyes) rfl hdistance

theorem advance_file {h : Host} {now : Time} (hstep : InStep now h) (hnow : 0 ≤ now)
    (succeeds : Bool) : FileStep h now (advance h succeeds now) := by
  unfold advance
  have hhere := hstep
  unfold InStep at hhere
  cases hw : h.watchdog with
  | idle => exact FileStep.quiet rfl id rfl hstep
  | entering caller =>
    rw [hw] at hhere
    exact takePause_file hhere
  | recovering caller stage state =>
    dsimp only
    split
    · exact advanceStage_file hw hstep hnow
    · exact FileStep.quiet rfl (fun hyes => by cases hyes) rfl trivial
  | finishing =>
    rw [hw] at hhere
    have hlast : lastRestart ({ h with saved := saveState ⟨0, now⟩, watchdog := .idle } : Host) =
        now := lastRestart_of_saved rfl rfl hnow
    refine ⟨?_, fun _ hyes => ?_, fun notedAt hout => ?_, trivial⟩
    · exact le_of_le_of_eq hhere hlast.symm
    · cases hyes
    · cases hout

theorem whenIdle_file {h : Host} {now : Time} {next : Host × Output} (hstep : InStep now h)
    (hnext : h.watchdog = .idle → FileStep h now next) : FileStep h now (whenIdle h next) := by
  unfold whenIdle
  split
  · rename_i hidle
    exact hnext hidle
  · exact FileStep.quiet rfl id rfl hstep

theorem step_file {h : Host} {call : Call} (hstep : InStep call.now h) (hnow : 0 ≤ call.now) :
    FileStep h call.now (step h call) := by
  obtain ⟨now, action⟩ := call
  cases action with
  | check reading => exact whenIdle_file hstep fun hidle => checkBrowser_file hidle reading now
  | checkBusy reading =>
    exact whenIdle_file hstep fun hidle => checkBusyBrowser_file hidle reading now
  | resume => exact whenIdle_file hstep fun hidle => resumePendingRecovery_file hidle now
  | advance succeeds => exact advance_file hstep hnow succeeds
  | die => exact FileStep.quiet rfl (fun hyes => by cases hyes) rfl trivial
  | deploy op =>
    obtain ⟨pause, deployment, hhost, hout⟩ := deployStep_cases h op
    change FileStep h now (deployStep h op)
    refine FileStep.quiet ?_ ?_ ?_ ?_
    · rw [hhost]
      rfl
    · rw [hhost]
      exact id
    · rcases hout with hout | hout <;> rw [hout] <;> rfl
    · rw [hhost]
      exact hstep

def restarts (h : Host) (run : List Call) : List Time :=
  (events step h run).filterMap fun e => restartOf e.output

theorem restarts_cons (h : Host) (call : Call) (rest : List Call) :
    restarts h (call :: rest) =
      (restartOf (step h call).2).toList ++ restarts (step h call).1 rest := by
  unfold restarts
  rw [events, List.filterMap_cons]
  cases restartOf (step h call).2 <;> rfl

/-- A restart to come: the one that is recorded, or one five minutes after the last. -/
def MayRestart (h : Host) (notedAt : Time) : Prop :=
  if awaitsRestart h then lastRestart h ≤ notedAt
  else lastRestart h + restartCooldownSeconds ≤ notedAt

theorem restartOf_eq {out : Output} {notedAt : Time} (h : restartOf out = some notedAt) :
    out = .restartsBrowser notedAt := by
  cases out <;> cases h
  rfl

/-- What may restart after a call might have restarted before it. -/
theorem mayRestart_before {h : Host} {now : Time} {next : Host × Output}
    (hfile : FileStep h now next) {notedAt : Time} (hlater : MayRestart next.1 notedAt) :
    MayRestart h notedAt := by
  have hlong : 0 ≤ restartCooldownSeconds := by norm_num [restartCooldownSeconds]
  have hmono := hfile.mono
  unfold MayRestart at hlater ⊢
  cases hbefore : awaitsRestart h with
  | true =>
    rw [if_pos rfl]
    split at hlater <;> linarith
  | false =>
    rw [if_neg Bool.false_ne_true]
    split at hlater
    · rename_i hafter
      exact (hfile.fresh hbefore hafter).trans hlater
    · linarith

/-- Restarts lie five minutes apart, by the times that were recorded for them. -/
theorem restarts_after (t : Time) (ht : 0 ≤ t) (h : Host) (hstep : InStep t h) (run : List Call)
    (hclock : Nondecreasing Call.now t run) :
    (∀ notedAt ∈ restarts h run, MayRestart h notedAt) ∧
      (restarts h run).Pairwise fun a b => a + restartCooldownSeconds ≤ b := by
  induction run generalizing t h with
  | nil => exact ⟨fun _ hmem => absurd hmem List.not_mem_nil, List.Pairwise.nil⟩
  | cons call rest ih =>
    obtain ⟨hlate, hrest⟩ := hclock
    have hnow : 0 ≤ call.now := ht.trans hlate
    have hfile := step_file (hstep.mono hlate) hnow
    obtain ⟨hlater, hspaced⟩ := ih call.now hnow (step h call).1 hfile.inStep hrest
    rw [restarts_cons]
    cases hout : restartOf (step h call).2 with
    | none =>
      simp only [Option.toList_none, List.nil_append]
      exact ⟨fun b hb => mayRestart_before hfile (hlater b hb), hspaced⟩
    | some notedAt =>
      obtain ⟨hawaits, hdone, rfl, hsame⟩ := hfile.restart notedAt (restartOf_eq hout)
      simp only [Option.toList_some, List.singleton_append, List.mem_cons, List.pairwise_cons]
      refine ⟨?_, ?_, hspaced⟩
      · rintro b (rfl | hb)
        · simp [MayRestart, hawaits]
        · exact mayRestart_before hfile (hlater b hb)
      · intro b hb
        have hfar := hlater b hb
        unfold MayRestart at hfar
        rw [hdone, if_neg Bool.false_ne_true, hsame] at hfar
        exact hfar

/-- The probe results that the watchdog counted, the last one first. -/
def probeOf : Output → Option Bool
  | .decided healthy _ => some healthy
  | _ => none

def probes (es : List (Event Host Call Output)) : List Bool :=
  (es.filterMap fun e => probeOf e.output).reverse

/-- The failed probes since the last healthy one. -/
def failureStreak (healthy : List Bool) : ℕ := (healthy.takeWhile fun ok => !ok).length

/-- The counter never exceeds the failed probes in a row. -/
theorem decideRestart_failures (state : WatchdogState) (healthy busy : Bool) (now : Time)
    {streak : List Bool} (h : state.consecutiveFailures ≤ failureStreak streak) :
    (decideRestart state healthy busy now).1.consecutiveFailures ≤
      failureStreak (healthy :: streak) := by
  unfold decideRestart failureStreak at *
  cases healthy with
  | true => simp
  | false =>
    simp only [Bool.false_eq_true, if_false, Bool.not_false, List.takeWhile_cons_of_pos,
      List.length_cons]
    omega

/-- The failures that a recovery or the state file carries. -/
def Counted (h : Host) (streak : List Bool) : Prop :=
  (loadState h.saved).consecutiveFailures ≤ failureStreak streak ∧
    ∀ caller stage state, h.watchdog = .recovering caller stage state →
      state.consecutiveFailures ≤ failureStreak streak

/-- A call counts its probe, and it asks for a restart on a second failure at the earliest. -/
structure CountStep (streak : List Bool) (next : Host × Output) : Prop where
  counted : Counted next.1 ((probeOf next.2).toList ++ streak)
  confirmed : ∀ healthy, next.2 = .decided healthy true →
    failureThreshold ≤ failureStreak (healthy :: streak)

theorem CountStep.quiet {streak : List Bool} {next : Host × Output}
    (hcounted : Counted next.1 streak) (hout : probeOf next.2 = none) :
    CountStep streak next where
  counted := by
    rw [hout]
    exact hcounted
  confirmed healthy h := by
    rw [h] at hout
    cases hout

theorem counted_idle {h : Host} {streak : List Bool} (hidle : h.watchdog = .idle)
    (hfile : (loadState h.saved).consecutiveFailures ≤ failureStreak streak) :
    Counted h streak := by
  refine ⟨hfile, ?_⟩
  intro caller stage state hw
  rw [hidle] at hw
  cases hw

/-- A decision to restart follows a failed probe, and as many of them as the threshold asks for. -/
theorem decision_counted {h : Host} {streak : List Bool} (hcounted : Counted h streak)
    (healthy busy : Bool) (now : Time) :
    (decideRestart (loadState h.saved) healthy busy now).1.consecutiveFailures ≤
        failureStreak (healthy :: streak) ∧
      ((decideRestart (loadState h.saved) healthy busy now).2 = true →
        healthy = false ∧ failureThreshold ≤ failureStreak (false :: streak)) := by
  refine ⟨decideRestart_failures _ _ _ _ hcounted.1, ?_⟩
  intro hrestart
  obtain ⟨hfailed, _, hcount, _⟩ := decideRestart_true hrestart
  refine ⟨hfailed, hcount.trans ?_⟩
  have hfile := hcounted.1
  unfold failureStreak at *
  simp only [Bool.not_false, List.takeWhile_cons_of_pos, List.length_cons]
  omega

theorem failureStreak_false (streak : List Bool) :
    failureStreak streak ≤ failureStreak (false :: streak) := by
  unfold failureStreak
  simp

theorem checkBrowser_counts {h : Host} {streak : List Bool} (hidle : h.watchdog = .idle)
    (hcounted : Counted h streak) (reading : Reading) (now : Time) :
    CountStep streak (checkBrowser h reading now) := by
  unfold checkBrowser
  dsimp only
  split
  · exact CountStep.quiet hcounted rfl
  obtain ⟨hfailures, hrestart⟩ := decision_counted hcounted
    (reading.endpoint && (deliveryInFlight reading.leases now || reading.renderer))
    (deliveryInFlight reading.leases now) now
  split
  · rename_i hdecided
    obtain ⟨hfailed, hstreak⟩ := hrestart hdecided
    rw [hfailed] at hfailures ⊢
    split
    · refine ⟨⟨hcounted.1.trans (failureStreak_false streak), fun _ _ _ hw => by cases hw⟩, ?_⟩
      intro healthy hout
      obtain rfl : false = healthy := by cases hout; rfl
      exact hstreak
    · refine ⟨counted_idle hidle ?_, fun healthy hout => by cases hout⟩
      rw [load_save_failures]
      exact Nat.zero_le _
  · refine ⟨counted_idle hidle ?_, fun healthy hout => by cases hout⟩
    rw [load_save_failures]
    exact hfailures

theorem checkBusyBrowser_counts {h : Host} {streak : List Bool} (hidle : h.watchdog = .idle)
    (hcounted : Counted h streak) (reading : Reading) (now : Time) :
    CountStep streak (checkBusyBrowser h reading now) := by
  unfold checkBusyBrowser
  split
  · exact CountStep.quiet hcounted rfl
  dsimp only
  obtain ⟨hfailures, hrestart⟩ :=
    decision_counted hcounted (reading.endpoint && reading.renderer) false now
  split
  · rename_i hdecided
    obtain ⟨hfailed, hstreak⟩ := hrestart (Bool.and_eq_true_iff.mp hdecided).1
    rw [hfailed] at hfailures ⊢
    refine ⟨⟨?_, fun _ _ _ hw => by cases hw⟩, ?_⟩
    · rw [load_save_failures]
      exact hfailures
    · intro healthy hout
      obtain rfl : false = healthy := by cases hout; rfl
      exact hstreak
  · refine ⟨counted_idle hidle ?_, fun healthy hout => by cases hout⟩
    rw [load_save_failures]
    exact hfailures

/-- A stage counts no failure that was not probed. -/
theorem advanceStage_counts {h : Host} {streak : List Bool} {caller : Caller} {stage : Stage}
    {state : WatchdogState} (hw : h.watchdog = .recovering caller stage state)
    (hcounted : Counted h streak) (now : Time) :
    CountStep streak (advanceStage h caller state now stage) := by
  have hstate := hcounted.2 caller stage state hw
  have hmoved : ∀ next : Stage,
      Counted { h with watchdog := .recovering caller next state } streak := by
    intro next
    refine ⟨hcounted.1, ?_⟩
    intro c g u hu
    obtain ⟨_, _, rfl⟩ := Watchdog.recovering.inj hu
    exact hstate
  cases stage with
  | owned =>
    refine CountStep.quiet ⟨?_, ?_⟩ rfl
    · refine le_of_eq_of_le (load_save_failures _) ?_
      exact hcounted.1
    · intro c g u hu
      obtain ⟨_, _, rfl⟩ := Watchdog.recovering.inj hu
      exact hcounted.1
  | verified =>
    refine CountStep.quiet ⟨?_, ?_⟩ rfl
    · refine le_of_eq_of_le (load_save_failures _) ?_
      exact Nat.zero_le _
    · intro c g u hu
      obtain ⟨_, _, rfl⟩ := Watchdog.recovering.inj hu
      exact Nat.zero_le _
  | cleared =>
    refine CountStep.quiet ⟨hcounted.1, ?_⟩ rfl
    intro c g u hu
    dsimp only [advanceStage] at hu
    split at hu <;> cases hu
  | noted => exact CountStep.quiet (hmoved .recorded) rfl
  | recorded => exact CountStep.quiet (hmoved .stopped) rfl
  | stopped => exact CountStep.quiet (hmoved .restarted) rfl
  | restarted => exact CountStep.quiet (hmoved .responding) rfl
  | responding => exact CountStep.quiet (hmoved .started) rfl
  | started => exact CountStep.quiet (hmoved .verified) rfl

theorem takePause_counts {h : Host} {streak : List Bool} (hcounted : Counted h streak)
    (caller : Caller) : CountStep streak (takePause h caller) := by
  unfold takePause
  split
  · exact CountStep.quiet ⟨hcounted.1, fun _ _ _ hw => by cases hw⟩ rfl
  · refine CountStep.quiet ⟨hcounted.1, ?_⟩ rfl
    intro c g u hu
    obtain ⟨_, _, rfl⟩ := Watchdog.recovering.inj hu
    exact Nat.zero_le _

theorem advance_counts {h : Host} {streak : List Bool} (hcounted : Counted h streak)
    (succeeds : Bool) (now : Time) : CountStep streak (advance h succeeds now) := by
  unfold advance
  cases hw : h.watchdog with
  | idle => exact CountStep.quiet hcounted rfl
  | entering caller => exact takePause_counts hcounted caller
  | recovering caller stage state =>
    dsimp only
    split
    · exact advanceStage_counts hw hcounted now
    · exact CountStep.quiet ⟨hcounted.1, fun _ _ _ hu => by cases hu⟩ rfl
  | finishing =>
    refine CountStep.quiet ⟨?_, fun _ _ _ hu => by cases hu⟩ rfl
    refine le_of_eq_of_le (load_save_failures _) ?_
    exact Nat.zero_le _

theorem step_counts {h : Host} {streak : List Bool} (hcounted : Counted h streak) (call : Call) :
    CountStep streak (step h call) := by
  have hidle : ∀ next : Host × Output, (h.watchdog = .idle → CountStep streak next) →
      CountStep streak (whenIdle h next) := by
    intro next hnext
    unfold whenIdle
    split
    · rename_i hidle
      exact hnext hidle
    · exact CountStep.quiet hcounted rfl
  obtain ⟨now, action⟩ := call
  cases action with
  | check reading => exact hidle _ fun hw => checkBrowser_counts hw hcounted reading now
  | checkBusy reading => exact hidle _ fun hw => checkBusyBrowser_counts hw hcounted reading now
  | resume =>
    refine hidle _ fun hw => ?_
    unfold resumePendingRecovery
    split
    · exact CountStep.quiet ⟨hcounted.1, fun _ _ _ hu => by cases hu⟩ rfl
    · exact CountStep.quiet hcounted rfl
  | advance succeeds => exact advance_counts hcounted succeeds now
  | die => exact CountStep.quiet ⟨hcounted.1, fun _ _ _ hu => by cases hu⟩ rfl
  | deploy op =>
    obtain ⟨pause, deployment, hhost, hout⟩ := deployStep_cases h op
    change CountStep streak (deployStep h op)
    refine CountStep.quiet ?_ ?_
    · rw [hhost]
      exact hcounted
    · rcases hout with hout | hout <;> rw [hout] <;> rfl

theorem probes_append (es : List (Event Host Call Output)) (e : Event Host Call Output) :
    probes (es ++ [e]) = (probeOf e.output).toList ++ probes es := by
  unfold probes
  rw [List.filterMap_append, List.reverse_append]
  cases h : probeOf e.output <;> simp [List.filterMap, h]

theorem counted_of_run (h : Host) (hcounted : Counted h []) (run : List Call) :
    Counted (final step h run) (probes (events step h run)) := by
  induction run using List.reverseRecOn with
  | nil => exact hcounted
  | append_singleton run call ih =>
    rw [final_append, events_append]
    refine (congrArg (Counted _) (probes_append _ _)).mpr ?_
    exact (step_counts ih call).counted

/-- Over all runs of watchdog ticks, kills and deployments: recorded browser restarts lie five
minutes apart, and a tick asks for a restart only when the last two probes that were counted,
its own the later, both failed. -/
theorem restarts_confirmed (run : List Call) (hclock : Nondecreasing Call.now 0 run) :
    ((restarts {} run).Pairwise fun a b => a + restartCooldownSeconds ≤ b) ∧
      ∀ before e after healthy, events step {} run = before ++ e :: after →
        e.output = .decided healthy true →
          failureThreshold ≤ failureStreak (probes (before ++ [e])) := by
  refine ⟨(restarts_after 0 (le_refl 0) {} trivial run hclock).2, ?_⟩
  intro before e after healthy hsplit hout
  obtain ⟨left, right, hrun, hpre, hbefore, _⟩ := event_pre step {} run before after e hsplit
  have hcounted := counted_of_run {} ⟨Nat.zero_le _, fun _ _ _ hw => by cases hw⟩ left
  rw [hbefore, ← hpre] at hcounted
  have hmem : e ∈ events step {} run := by
    rw [hsplit]
    exact List.mem_append_right _ List.mem_cons_self
  have hstep := event_step step {} run e hmem
  have hconfirmed := (step_counts hcounted e.input).confirmed healthy (by rw [hstep]; exact hout)
  rw [probes_append, hout]
  exact hconfirmed

def Watchdog.isRecovering : Watchdog → Bool
  | .recovering _ _ _ => true
  | _ => false

def ownedByDeployment : Option Marker → Bool
  | some (.deployment _ _) => true
  | _ => false

/-- A recovery holds the pause under its own marker, a deployment under its own. -/
structure Owners (h : Host) : Prop where
  recovery : h.watchdog.isRecovering = true → h.pause = some .recovery
  deployment : h.deployment ≠ .absent → ownedByDeployment h.pause = true

/-- The operator removes the pause only when no deployment and no recovery is at work. -/
def ResumesLeftover (h : Host) (call : Call) : Prop :=
  call.action = .deploy .resume → h.deployment = .absent ∧ h.watchdog.isRecovering = false

theorem Owners.apart {h : Host} (ho : Owners h) (hr : h.watchdog.isRecovering = true) :
    h.deployment = .absent := by
  by_contra hd
  have howned := ho.deployment hd
  rw [ho.recovery hr] at howned
  cases howned

/-- A call of the watchdog outside a recovery leaves both owners alone. -/
theorem Owners.idle {h h' : Host} (ho : Owners h) (hpause : h'.pause = h.pause)
    (hdeployment : h'.deployment = h.deployment) (hw : h'.watchdog.isRecovering = false) :
    Owners h' where
  recovery hr := by
    rw [hw] at hr
    cases hr
  deployment hd := by
    rw [hpause]
    exact ho.deployment (hdeployment ▸ hd)

/-- A check leaves the pause and the deployment, and at most asks for a recovery. -/
theorem checkBrowser_host (h : Host) (reading : Reading) (now : Time) :
    (checkBrowser h reading now).1.pause = h.pause ∧
      (checkBrowser h reading now).1.deployment = h.deployment ∧
      ((checkBrowser h reading now).1.watchdog = h.watchdog ∨
        (checkBrowser h reading now).1.watchdog = .entering .check) := by
  unfold checkBrowser
  dsimp only
  split_ifs
  · exact ⟨rfl, rfl, Or.inl rfl⟩
  · exact ⟨rfl, rfl, Or.inr rfl⟩
  · exact ⟨rfl, rfl, Or.inl rfl⟩
  · exact ⟨rfl, rfl, Or.inl rfl⟩

/-- So does the check of a busy browser. -/
theorem checkBusyBrowser_host (h : Host) (reading : Reading) (now : Time) :
    (checkBusyBrowser h reading now).1.pause = h.pause ∧
      (checkBusyBrowser h reading now).1.deployment = h.deployment ∧
      ((checkBusyBrowser h reading now).1.watchdog = h.watchdog ∨
        (checkBusyBrowser h reading now).1.watchdog = .entering .check) := by
  unfold checkBusyBrowser
  dsimp only
  split_ifs
  · exact ⟨rfl, rfl, Or.inl rfl⟩
  · exact ⟨rfl, rfl, Or.inr rfl⟩
  · exact ⟨rfl, rfl, Or.inl rfl⟩

/-- So does the resumption of a recovery. -/
theorem resumePendingRecovery_host (h : Host) (now : Time) :
    (resumePendingRecovery h now).1.pause = h.pause ∧
      (resumePendingRecovery h now).1.deployment = h.deployment ∧
      ((resumePendingRecovery h now).1.watchdog = h.watchdog ∨
        (resumePendingRecovery h now).1.watchdog = .entering .resume) := by
  unfold resumePendingRecovery
  split_ifs
  · exact ⟨rfl, rfl, Or.inr rfl⟩
  · exact ⟨rfl, rfl, Or.inl rfl⟩

/-- A tick that at most asks for a recovery keeps the owners apart. -/
theorem whenIdle_owners {h : Host} {next : Host × Output} (ho : Owners h)
    (hnext : next.1.pause = h.pause ∧ next.1.deployment = h.deployment ∧
      (next.1.watchdog = h.watchdog ∨ ∃ caller, next.1.watchdog = .entering caller)) :
    Owners (whenIdle h next).1 := by
  unfold whenIdle
  split
  · rename_i hidle
    obtain ⟨hpause, hdeployment, hw⟩ := hnext
    refine ho.idle hpause hdeployment ?_
    rcases hw with hw | ⟨caller, hw⟩
    · rw [hw, hidle]
      rfl
    · rw [hw]
      rfl
  · exact ho

theorem takePause_owners {h : Host} {caller : Caller} (ho : Owners h) :
    Owners (takePause h caller).1 := by
  unfold takePause
  split
  · exact ho.idle rfl rfl rfl
  · rename_i hfree
    refine ⟨fun _ => rfl, fun hd => ?_⟩
    have howned := ho.deployment hd
    unfold ownedByDeployment at howned
    split at howned
    · rename_i pid seconds hpause
      exact absurd hpause (hfree pid seconds)
    · cases howned

/-- A stage takes the pause only where nobody has it, and removes only its own. -/
theorem advanceStage_owners {h : Host} {caller : Caller} {stage : Stage} {state : WatchdogState}
    (ho : Owners h) (hw : h.watchdog = .recovering caller stage state) (now : Time) :
    Owners (advanceStage h caller state now stage).1 := by
  have hr : h.watchdog.isRecovering = true := by rw [hw]; rfl
  have hpause := ho.recovery hr
  have habsent := ho.apart hr
  cases stage
  case cleared =>
    refine ⟨fun hcleared => ?_, fun hd => absurd habsent hd⟩
    dsimp only [advanceStage] at hcleared
    split at hcleared <;> cases hcleared
  all_goals exact ⟨fun _ => hpause, fun hd => absurd habsent hd⟩

theorem advance_owners {h : Host} (ho : Owners h) (succeeds : Bool) (now : Time) :
    Owners (advance h succeeds now).1 := by
  unfold advance
  cases hw : h.watchdog with
  | idle => exact ho
  | entering caller => exact takePause_owners ho
  | recovering caller stage state =>
    dsimp only
    split
    · exact advanceStage_owners ho hw now
    · exact ho.idle rfl rfl rfl
  | finishing => exact ho.idle rfl rfl rfl

theorem deployStep_owners {h : Host} (ho : Owners h) (op : Deploy)
    (hleftover : op = .resume → h.deployment = .absent ∧ h.watchdog.isRecovering = false) :
    Owners (deployStep h op).1 := by
  have hquiet : h.deployment ≠ .absent → h.watchdog.isRecovering = false := by
    intro hd
    by_contra hr
    exact hd (ho.apart (by simpa using hr))
  have hrecovery : ∀ deployment, h.watchdog.isRecovering = true →
      ({ h with deployment := deployment } : Host).pause = some .recovery :=
    fun _ hr => ho.recovery hr
  cases op with
  | pause pid seconds =>
    dsimp only [deployStep, requestPause]
    split
    · rename_i hfree
      refine ⟨fun hr => ?_, fun _ => rfl⟩
      have hpause := ho.recovery hr
      rw [hfree.1] at hpause
      cases hpause
    · exact ho
  | retire =>
    dsimp only [deployStep]
    split
    · rename_i hpaused
      exact ⟨hrecovery _, fun _ => ho.deployment (by rw [hpaused]; decide)⟩
    · exact ho
  | serve =>
    dsimp only [deployStep]
    split
    · rename_i hretired
      refine ⟨fun hr => ?_, fun hd => absurd rfl hd⟩
      have hnot := hquiet (by rw [hretired]; decide)
      exact absurd (hr.symm.trans hnot) (by decide)
    · exact ho
  | fail =>
    dsimp only [deployStep]
    split
    · rename_i hpaused
      refine ⟨fun hr => ?_, fun hd => absurd rfl hd⟩
      have hnot := hquiet (by rw [hpaused]; decide)
      exact absurd (hr.symm.trans hnot) (by decide)
    · exact ⟨hrecovery _, fun hd => absurd rfl hd⟩
  | die => exact ⟨hrecovery _, fun hd => absurd rfl hd⟩
  | resume =>
    obtain ⟨habsent, hidle⟩ := hleftover rfl
    refine ⟨fun hr => ?_, fun hd => absurd habsent hd⟩
    exact absurd (hr.symm.trans hidle) (by decide)

theorem step_owners {h : Host} (ho : Owners h) {call : Call} (hcall : ResumesLeftover h call) :
    Owners (step h call).1 := by
  obtain ⟨now, action⟩ := call
  cases action with
  | check reading =>
    obtain ⟨hpause, hdeployment, hw⟩ := checkBrowser_host h reading now
    exact whenIdle_owners ho ⟨hpause, hdeployment, hw.imp_right fun hnew => ⟨_, hnew⟩⟩
  | checkBusy reading =>
    obtain ⟨hpause, hdeployment, hw⟩ := checkBusyBrowser_host h reading now
    exact whenIdle_owners ho ⟨hpause, hdeployment, hw.imp_right fun hnew => ⟨_, hnew⟩⟩
  | resume =>
    obtain ⟨hpause, hdeployment, hw⟩ := resumePendingRecovery_host h now
    exact whenIdle_owners ho ⟨hpause, hdeployment, hw.imp_right fun hnew => ⟨_, hnew⟩⟩
  | advance succeeds => exact advance_owners ho succeeds now
  | die => exact ho.idle rfl rfl rfl
  | deploy op => exact deployStep_owners ho op fun hop => hcall (by rw [hop])

def actsOnHost : Output → Bool
  | .stopsWorkers => true
  | .restartsBrowser _ => true
  | .startsWorkers => true
  | .resumesAdmission => true
  | _ => false

theorem whenIdle_quiet {h : Host} {next : Host × Output} (hnext : actsOnHost next.2 = false)
    (hpause : next.1.pause = h.pause) :
    actsOnHost (whenIdle h next).2 = false ∧ (whenIdle h next).1.pause = h.pause := by
  unfold whenIdle
  split
  · exact ⟨hnext, hpause⟩
  · exact ⟨rfl, rfl⟩

/-- A tick alone touches neither the workers nor the browser. -/
theorem tick_quiet (h : Host) (reading : Reading) (now : Time) :
    actsOnHost (checkBrowser h reading now).2 = false ∧
      actsOnHost (checkBusyBrowser h reading now).2 = false ∧
      actsOnHost (resumePendingRecovery h now).2 = false := by
  unfold checkBrowser checkBusyBrowser resumePendingRecovery
  dsimp only
  refine ⟨?_, ?_, ?_⟩ <;> split_ifs <;> rfl

/-- Only a recovery acts on the host. -/
theorem acts_recovering {h : Host} {call : Call} (hacts : actsOnHost (step h call).2 = true) :
    h.watchdog.isRecovering = true := by
  obtain ⟨now, action⟩ := call
  have hquiet : ∀ {next : Host × Output}, actsOnHost next.2 = false → next.1.pause = h.pause →
      actsOnHost (whenIdle h next).2 = true → h.watchdog.isRecovering = true := by
    intro next hnext hpause hyes
    rw [(whenIdle_quiet hnext hpause).1] at hyes
    cases hyes
  cases action with
  | check reading =>
    exact hquiet (tick_quiet h reading now).1 (checkBrowser_host h reading now).1 hacts
  | checkBusy reading =>
    exact hquiet (tick_quiet h reading now).2.1 (checkBusyBrowser_host h reading now).1 hacts
  | resume =>
    have hnext : actsOnHost (resumePendingRecovery h now).2 = false := by
      unfold resumePendingRecovery
      split_ifs <;> rfl
    exact hquiet hnext (resumePendingRecovery_host h now).1 hacts
  | advance succeeds =>
    dsimp only [step] at hacts
    unfold advance at hacts
    cases hw : h.watchdog with
    | recovering caller stage state => rfl
    | idle =>
      rw [hw] at hacts
      cases hacts
    | finishing =>
      rw [hw] at hacts
      cases hacts
    | entering caller =>
      rw [hw] at hacts
      dsimp only [takePause] at hacts
      split at hacts <;> cases hacts
  | die => cases hacts
  | deploy op =>
    obtain ⟨_, _, _, hout⟩ := deployStep_cases h op
    dsimp only [step] at hacts
    rcases hout with hout | hout <;> rw [hout] at hacts <;> cases hacts

/-- Who may end a pause: a recovery that is done its own, and a deployment its own. -/
theorem pause_ended {h : Host} (ho : Owners h) {call : Call} (hcall : ResumesLeftover h call)
    {m : Marker} (hpause : h.pause = some m) (hended : (step h call).1.pause ≠ some m) :
    (m = .recovery ∧ (step h call).2 = .resumesAdmission) ∨
      (m ≠ .recovery ∧ h.deployment ≠ .absent) ∨ call.action = .deploy .resume := by
  obtain ⟨now, action⟩ := call
  have hidle : ∀ {next : Host × Output}, next.1.pause = h.pause →
      (whenIdle h next).1.pause = some m := by
    intro next hnext
    unfold whenIdle
    split
    · exact hnext.trans hpause
    · exact hpause
  cases action with
  | check reading => exact absurd (hidle (checkBrowser_host h reading now).1) hended
  | checkBusy reading => exact absurd (hidle (checkBusyBrowser_host h reading now).1) hended
  | resume => exact absurd (hidle (resumePendingRecovery_host h now).1) hended
  | die => exact absurd hpause hended
  | advance succeeds =>
    dsimp only [step] at hended ⊢
    unfold advance at hended ⊢
    cases hw : h.watchdog with
    | idle =>
      rw [hw] at hended
      exact absurd hpause hended
    | finishing =>
      rw [hw] at hended
      exact absurd hpause hended
    | entering caller =>
      rw [hw] at hended
      dsimp only [takePause] at hended
      split at hended
      · exact absurd hpause hended
      · rename_i hfree
        cases m with
        | recovery => exact absurd rfl hended
        | deployment pid seconds => exact absurd hpause (hfree pid seconds)
    | recovering caller stage state =>
      have hown := ho.recovery (by rw [hw]; rfl)
      obtain rfl : m = .recovery := Option.some.inj (hpause.symm.trans hown)
      rw [hw] at hended
      dsimp only at hended ⊢
      split at hended
      · rename_i hsucceeds
        rw [if_pos hsucceeds]
        refine Or.inl ⟨rfl, ?_⟩
        cases stage
        case cleared => rfl
        all_goals exact absurd hpause hended
      · exact absurd hpause hended
  | deploy op =>
    have hown : h.deployment ≠ .absent → m ≠ .recovery := by
      rintro hd rfl
      have howned := ho.deployment hd
      rw [hpause] at howned
      cases howned
    dsimp only [step] at hended ⊢
    cases op with
    | resume => exact Or.inr (Or.inr rfl)
    | die => exact absurd hpause hended
    | pause pid seconds =>
      dsimp only [deployStep, requestPause] at hended
      split at hended
      · rename_i hfree
        rw [hfree.1] at hpause
        cases hpause
      · exact absurd hpause hended
    | retire =>
      dsimp only [deployStep] at hended
      split at hended <;> exact absurd hpause hended
    | serve =>
      dsimp only [deployStep] at hended
      split at hended
      · rename_i hretired
        have hd : h.deployment ≠ .absent := by rw [hretired]; decide
        exact Or.inr (Or.inl ⟨hown hd, hd⟩)
      · exact absurd hpause hended
    | fail =>
      dsimp only [deployStep] at hended
      split at hended
      · rename_i hpaused
        have hd : h.deployment ≠ .absent := by rw [hpaused]; decide
        exact Or.inr (Or.inl ⟨hown hd, hd⟩)
      · exact absurd hpause hended

/-- In any interleaving in which the operator resumes only leftover pauses: the watchdog stops
workers, restarts the browser or resumes admission only under its own pause and with no
deployment at work; a deployment is at work only under its own and with no recovery under way;
and neither ends the other's pause. -/
theorem one_owner (run : List Call) (hrun : Meets step ResumesLeftover {} run)
    (e : Event Host Call Output) (he : e ∈ events step {} run) :
    (actsOnHost e.output = true → e.pre.pause = some .recovery ∧ e.pre.deployment = .absent) ∧
      (e.pre.deployment ≠ .absent →
        ownedByDeployment e.pre.pause = true ∧ e.pre.watchdog.isRecovering = false) ∧
      ∀ m, e.pre.pause = some m → e.post.pause ≠ some m →
        (m = .recovery ∧ e.output = .resumesAdmission) ∨
          (m ≠ .recovery ∧ e.pre.deployment ≠ .absent) ∨ e.input.action = .deploy .resume := by
  have ho : Owners e.pre := by
    refine event_invariant step ResumesLeftover Owners ?_ {} ?_ run hrun e he
    · exact fun h call hcall ho => step_owners ho hcall
    · exact ⟨fun hr => (by cases hr), fun hd => absurd rfl hd⟩
  have hcall : ResumesLeftover e.pre e.input :=
    (meets_iff_events step ResumesLeftover {} run).mp hrun e he
  have hstep := event_step step {} run e he
  refine ⟨?_, ?_, ?_⟩
  · intro hacts
    have hr : e.pre.watchdog.isRecovering = true := acts_recovering (by rw [hstep]; exact hacts)
    exact ⟨ho.recovery hr, ho.apart hr⟩
  · intro hd
    refine ⟨ho.deployment hd, ?_⟩
    by_contra hr
    exact hd (ho.apart (by simpa using hr))
  · intro m hpause hended
    have hcases := pause_ended ho hcall hpause (by rw [hstep]; exact hended)
    rw [hstep] at hcases
    exact hcases

def deadBrowser : Reading where
  endpoint := false
  renderer := false
  serviceActive := true
  leases := { store := Store.empty }

/-- Two failed ticks and the recovery up to its restart. -/
def failedTicks : List Call :=
  [⟨400, .check deadBrowser⟩, ⟨420, .check deadBrowser⟩, ⟨421, .advance true⟩,
    ⟨422, .advance true⟩, ⟨423, .advance true⟩, ⟨424, .advance true⟩, ⟨425, .advance true⟩]

/-- The tick is killed behind its restart, and a later one goes on with the recovery. -/
def cutOffTicks : List Call :=
  failedTicks ++ [⟨430, .die⟩, ⟨722, .resume⟩, ⟨723, .advance true⟩, ⟨724, .advance true⟩,
    ⟨725, .advance true⟩, ⟨726, .advance true⟩, ⟨727, .advance true⟩]

theorem cutOffTicks_clock : Nondecreasing Call.now 0 cutOffTicks := by
  simp only [Nondecreasing, cutOffTicks, failedTicks, List.cons_append, List.nil_append, Timed]
  norm_num

theorem restarts_confirmed_cutOffTicks :
    restarts {} cutOffTicks = [422, 724] ∧
      ((restarts {} cutOffTicks).Pairwise fun a b => a + restartCooldownSeconds ≤ b) ∧
        ∀ before e after healthy, events step {} cutOffTicks = before ++ e :: after →
          e.output = .decided healthy true →
            failureThreshold ≤ failureStreak (probes (before ++ [e])) :=
  ⟨by decide +kernel, restarts_confirmed cutOffTicks cutOffTicks_clock⟩

/-- A deployment is killed when the workers are stopped, and the operator removes its pause. -/
def killedDeployment : List Call :=
  [⟨100, .deploy (.pause 7 100)⟩, ⟨101, .deploy .retire⟩, ⟨102, .deploy .die⟩,
    ⟨390, .deploy .resume⟩]

def eventAfter (before : List Call) (call : Call) : Event Host Call Output :=
  ⟨final step {} before, call, (step (final step {} before) call).2,
    (step (final step {} before) call).1⟩

theorem eventAfter_mem (before : List Call) (call : Call) (after : List Call) :
    eventAfter before call ∈ events step {} (before ++ call :: after) := by
  rw [events_append]
  exact List.mem_append_right _ List.mem_cons_self

theorem killedDeployment_leftover :
    Meets step ResumesLeftover {} (killedDeployment ++ failedTicks) := by
  refine (meets_append _ _ _ _ _).mpr ⟨⟨?_, ?_, ?_, ?_, trivial⟩,
    ⟨?_, ?_, ?_, ?_, ?_, ?_, ?_, trivial⟩⟩
  case refine_4 => exact fun _ => ⟨rfl, rfl⟩
  all_goals
    intro hresume
    cases hresume

/-- The workers are stopped by the deployment under its pause, the operator ends the pause that
it leaves behind, and the watchdog restarts the browser under a pause of its own. -/
theorem one_owner_killedDeployment :
    (ownedByDeployment (eventAfter (killedDeployment.take 1) ⟨101, .deploy .retire⟩).pre.pause =
        true ∧
      (eventAfter (killedDeployment.take 1) ⟨101, .deploy .retire⟩).pre.watchdog.isRecovering =
        false) ∧
      ((Marker.deployment 7 100 = .recovery ∧
          (eventAfter (killedDeployment.take 3) ⟨390, .deploy .resume⟩).output =
            .resumesAdmission) ∨
        (Marker.deployment 7 100 ≠ .recovery ∧
          (eventAfter (killedDeployment.take 3) ⟨390, .deploy .resume⟩).pre.deployment ≠
            .absent) ∨
          Action.deploy .resume = .deploy .resume) ∧
      (eventAfter (killedDeployment ++ failedTicks.take 6) ⟨425, .advance true⟩).pre.pause =
          some .recovery ∧
        (eventAfter (killedDeployment ++ failedTicks.take 6) ⟨425, .advance true⟩).pre.deployment =
          .absent := by
  refine ⟨?_, ?_, ?_⟩
  · refine (one_owner _ killedDeployment_leftover _
      (eventAfter_mem (killedDeployment.take 1) ⟨101, .deploy .retire⟩
        (killedDeployment.drop 2 ++ failedTicks))).2.1 ?_
    decide +kernel
  · refine (one_owner _ killedDeployment_leftover _
      (eventAfter_mem (killedDeployment.take 3) ⟨390, .deploy .resume⟩ failedTicks)).2.2
        (.deployment 7 100) ?_ ?_
    · decide +kernel
    · decide +kernel
  · refine (one_owner _ killedDeployment_leftover _
      (eventAfter_mem (killedDeployment ++ failedTicks.take 6) ⟨425, .advance true⟩ [])).1 ?_
    decide +kernel

end Prompta.BrowserWatchdog
