import Mathlib.Algebra.Order.Ring.Int
import Prompta.Runs

/-!
The live updates of a page: one event stream that several listeners share, the timers that
repair it, and the page events that pause it. The state keeps the module's variables, where
a timer is pending exactly while its variable is set, together with what the browser holds:
the event sources that are not closed, the visibility of the page and the last events of
its network and of its history.
-/
namespace Prompta.LiveUpdates

open Runs

inductive Topic
  | jobs
  | chats
  deriving DecidableEq, Repr

/-- The named frames of the stream. -/
inductive Frame
  | sync
  | topic (t : Topic)
  | ping
  deriving DecidableEq, Repr

/-- A call of a listener. -/
inductive Notice
  | invalidated (topic : Topic) (listener : ℕ)
  | delayed (listener : ℕ) (value : Bool)
  deriving DecidableEq, Repr

def healthyPollMs : ℕ := 120000

def recoveryPollMs : ℕ := 15000

def statusGraceMs : ℤ := 10000

def resumeStatusGraceMs : ℤ := 20000

def reconnectDelayMs : ℕ := 2000

def maxReconnectDelayMs : ℕ := 30000

def staleStreamMs : ℤ := 60000

/-- The event sources are numbered as they are made. Timers keep their delays, and the
watchdog the source that it watches. -/
structure Live where
  jobs : List ℕ
  chats : List ℕ
  statusListeners : List ℕ
  source : Option ℕ
  fallbackIntervalMs : Option ℕ
  statusTimer : Option ℤ
  reconnectTimer : Option ℕ
  watchdogTimer : Option ℕ
  reconnectAttempts : ℕ
  lastStreamFrameAt : ℤ
  streamConnected : Bool
  updatesDelayed : Bool
  observedOffline : Bool
  backgrounded : Bool
  resumeGraceUntil : ℤ
  /-- The page events are listened to. -/
  attached : Bool
  /-- The sources whose `readyState` is not `CLOSED`. -/
  openSources : List ℕ
  created : ℕ
  visible : Bool
  /-- The last network event of the page was `offline`. -/
  offlineOutstanding : Bool
  /-- The page was hidden by `pagehide`, and neither shown again nor changed in visibility. -/
  paused : Bool
  notices : List Notice

def initial (visible : Bool) : Live where
  jobs := []
  chats := []
  statusListeners := []
  source := none
  fallbackIntervalMs := none
  statusTimer := none
  reconnectTimer := none
  watchdogTimer := none
  reconnectAttempts := 0
  lastStreamFrameAt := 0
  streamConnected := false
  updatesDelayed := false
  observedOffline := false
  backgrounded := false
  resumeGraceUntil := 0
  attached := false
  openSources := []
  created := 0
  visible := visible
  offlineOutstanding := false
  paused := false
  notices := []

/-- What the browser answers when a page asks for an event source. -/
inductive Construct
  | missing
  | rejected
  | opened
  deriving DecidableEq, Repr

inductive PageEvent
  | subscribe (topic : Topic) (listener : ℕ)
  | unsubscribe (topic : Topic) (listener : ℕ)
  | subscribeStatus (listener : ℕ)
  | unsubscribeStatus (listener : ℕ)
  | sourceOpen (id : ℕ)
  | sourceError (id : ℕ) (closed : Bool)
  | sourceFrame (id : ℕ) (frame : Frame)
  | watchdogTimeout
  | reconnectTimeout
  | statusTimeout
  | pollTick
  | retry
  | online
  | offline
  | visibilityChange (visible : Bool)
  | pageShow
  | pageHide
  deriving DecidableEq, Repr

/-- An event, the clock while it is handled, and the answer to a new event source. -/
structure Call where
  event : PageEvent
  now : ℤ
  construct : Construct

def hasSubscribers (s : Live) : Bool :=
  !s.jobs.isEmpty || !s.chats.isEmpty || !s.statusListeners.isEmpty

def listeners (s : Live) : Topic → List ℕ
  | .jobs => s.jobs
  | .chats => s.chats

def notify (topic : Topic) (s : Live) : Live :=
  if s.visible then
    { s with notices := s.notices ++ (listeners s topic).map (Notice.invalidated topic) }
  else s

def refreshBoth (s : Live) : Live :=
  if s.observedOffline then s else notify .chats (notify .jobs s)

def publishStatus (delayed : Bool) (s : Live) : Live :=
  if s.updatesDelayed = delayed then s
  else
    { s with
      updatesDelayed := delayed
      notices := s.notices ++ s.statusListeners.map fun l => Notice.delayed l delayed }

def setPollingInterval (milliseconds : ℕ) (s : Live) : Live :=
  { s with fallbackIntervalMs := some milliseconds }

def scheduleReconnect (s : Live) : Live :=
  if s.observedOffline || s.reconnectTimer.isSome || !hasSubscribers s then s
  else
    { s with
      reconnectAttempts := min (s.reconnectAttempts + 1) 4
      reconnectTimer := some
        (min maxReconnectDelayMs (reconnectDelayMs * 2 ^ s.reconnectAttempts)) }

def armWatchdog (current : ℕ) (s : Live) : Live := { s with watchdogTimer := some current }

def armDelayedStatus (now : ℤ) (s : Live) : Live :=
  if s.statusTimer.isSome || !s.visible then s
  else { s with statusTimer := some (max statusGraceMs (s.resumeGraceUntil - now)) }

def connectionLost (now : ℤ) (s : Live) : Live :=
  let lost := armDelayedStatus now
      (setPollingInterval recoveryPollMs { s with streamConnected := false })
  if s.streamConnected then refreshBoth lost else lost

def connectionRestored (s : Live) : Live :=
  setPollingInterval healthyPollMs
    (publishStatus false { s with streamConnected := true, statusTimer := none })

def connect (construct : Construct) (now : ℤ) (s : Live) : Live :=
  match construct with
  | .missing => scheduleReconnect (connectionLost now s)
  | .rejected => scheduleReconnect (connectionLost now s)
  | .opened =>
    armWatchdog s.created
      { s with
        source := some s.created
        created := s.created + 1
        openSources := s.openSources ++ [s.created]
        lastStreamFrameAt := now }

/-- `source?.close()` and `source = null`. -/
def closeSource (s : Live) : Live :=
  match s.source with
  | some id => { s with source := none, openSources := s.openSources.erase id }
  | none => s

def pauseForBackground (s : Live) : Live :=
  { s with backgrounded := true, statusTimer := none, watchdogTimer := none }

def retryLiveConnection (construct : Construct) (now : ℤ) (s : Live) : Live :=
  if !hasSubscribers s || s.observedOffline then s
  else
    let cleared := closeSource { s with reconnectTimer := none, watchdogTimer := none }
    let connected := connect construct now
        (connectionLost now { cleared with reconnectAttempts := 0 })
    if s.streamConnected then connected else refreshBoth connected

def visibleAgain (construct : Construct) (now : ℤ) (s : Live) : Live :=
  if !s.visible then pauseForBackground s
  else
    let resumed :=
      if s.backgrounded then
        { s with backgrounded := false, resumeGraceUntil := now + resumeStatusGraceMs }
      else s
    match resumed.source with
    | some current =>
      if current ∉ resumed.openSources ∨ staleStreamMs ≤ now - resumed.lastStreamFrameAt then
        retryLiveConnection construct now resumed
      else
        let armed := armWatchdog current (refreshBoth resumed)
        if armed.streamConnected then armed else armDelayedStatus now armed
    | none => retryLiveConnection construct now resumed

def offline (now : ℤ) (s : Live) : Live :=
  connectionLost now
    (closeSource { s with observedOffline := true, reconnectTimer := none, watchdogTimer := none })

def onlineAgain (construct : Construct) (now : ℤ) (s : Live) : Live :=
  if s.observedOffline then retryLiveConnection construct now { s with observedOffline := false }
  else visibleAgain construct now s

def start (construct : Construct) (now : ℤ) (s : Live) : Live :=
  { connect construct now (connectionLost now s) with attached := true }

def stop (s : Live) : Live :=
  { publishStatus false
      { closeSource s with
        fallbackIntervalMs := none
        statusTimer := none
        reconnectTimer := none
        watchdogTimer := none
        reconnectAttempts := 0
        lastStreamFrameAt := 0
        streamConnected := false
        observedOffline := false
        backgrounded := false
        resumeGraceUntil := 0 } with
    attached := false }

/-- `Set.add`: a listener is kept once, in the order of the first subscriptions. -/
def addListener (listener : ℕ) (ls : List ℕ) : List ℕ :=
  if listener ∈ ls then ls else ls ++ [listener]

def setListeners (topic : Topic) (f : List ℕ → List ℕ) (s : Live) : Live :=
  match topic with
  | .jobs => { s with jobs := f s.jobs }
  | .chats => { s with chats := f s.chats }

def subscribeLiveUpdates (topic : Topic) (listener : ℕ) (construct : Construct) (now : ℤ)
    (s : Live) :
    Live :=
  let subscribed := setListeners topic (addListener listener) s
  if hasSubscribers s then subscribed else start construct now subscribed

def subscribeLiveStatus (listener : ℕ) (construct : Construct) (now : ℤ) (s : Live) : Live :=
  let subscribed :=
    { s with
      statusListeners := addListener listener s.statusListeners
      notices := s.notices ++ [Notice.delayed listener s.updatesDelayed] }
  if hasSubscribers s then subscribed else start construct now subscribed

def stopUnused (s : Live) : Live := if hasSubscribers s then s else stop s

def sourceOpen (id : ℕ) (now : ℤ) (s : Live) : Live :=
  if s.source = some id then armWatchdog id { s with lastStreamFrameAt := now } else s

/-- A source that fails for good is closed by the browser before the event. -/
def sourceError (id : ℕ) (closed : Bool) (now : ℤ) (s : Live) : Live :=
  let failed := if closed then { s with openSources := s.openSources.erase id } else s
  if failed.source = some id then
    if id ∈ failed.openSources then connectionLost now failed
    else scheduleReconnect (connectionLost now failed)
  else failed

def sourceFrame (id : ℕ) (frame : Frame) (now : ℤ) (s : Live) : Live :=
  if s.source = some id ∧ s.observedOffline = false then
    let received := armWatchdog id { s with lastStreamFrameAt := now }
    let restored := connectionRestored { received with reconnectAttempts := 0 }
    match frame with
    | .sync => refreshBoth restored
    | .topic t => notify t restored
    | .ping => restored
  else s

def watchdogTimeout (now : ℤ) (s : Live) : Live :=
  match s.watchdogTimer with
  | some current =>
    let fired := { s with watchdogTimer := none }
    if fired.source ≠ some current ∨ fired.visible = false then fired
    else if now - fired.lastStreamFrameAt < staleStreamMs then armWatchdog current fired
    else scheduleReconnect (connectionLost now fired)
  | none => s

def reconnectTimeout (construct : Construct) (now : ℤ) (s : Live) : Live :=
  match s.reconnectTimer with
  | some _ =>
    let fired := { s with reconnectTimer := none }
    if hasSubscribers fired then connect construct now (closeSource fired) else fired
  | none => s

def statusTimeout (s : Live) : Live :=
  match s.statusTimer with
  | some _ =>
    let fired := { s with statusTimer := none }
    if !fired.streamConnected && fired.visible then publishStatus true fired else fired
  | none => s

def pollTick (s : Live) : Live := if s.fallbackIntervalMs.isSome then refreshBoth s else s

def handle (call : Call) (s : Live) : Live :=
  match call.event with
  | .subscribe topic listener => subscribeLiveUpdates topic listener call.construct call.now s
  | .unsubscribe topic listener => stopUnused (setListeners topic (fun ls => ls.erase listener) s)
  | .subscribeStatus listener => subscribeLiveStatus listener call.construct call.now s
  | .unsubscribeStatus listener =>
    stopUnused { s with statusListeners := s.statusListeners.erase listener }
  | .sourceOpen id => sourceOpen id call.now s
  | .sourceError id closed => sourceError id closed call.now s
  | .sourceFrame id frame => sourceFrame id frame call.now s
  | .watchdogTimeout => watchdogTimeout call.now s
  | .reconnectTimeout => reconnectTimeout call.construct call.now s
  | .statusTimeout => statusTimeout s
  | .pollTick => pollTick s
  | .retry => retryLiveConnection call.construct call.now s
  | .online =>
    let seen := { s with offlineOutstanding := false }
    if s.attached then onlineAgain call.construct call.now seen else seen
  | .offline =>
    let seen := { s with offlineOutstanding := true }
    if s.attached then offline call.now seen else seen
  | .visibilityChange visible =>
    let seen := { s with visible := visible, paused := false }
    if s.attached then visibleAgain call.construct call.now seen else seen
  | .pageShow =>
    let seen := { s with paused := false }
    if s.attached then visibleAgain call.construct call.now seen else seen
  | .pageHide =>
    let seen := { s with paused := true }
    if s.attached then pauseForBackground seen else seen

/-- One event, with the calls of listeners that it makes. -/
def step (s : Live) (call : Call) : Live × List Notice :=
  let after := handle call { s with notices := [] }
  (after, after.notices)

/-- The part of the state that decides whether the stream is repaired. -/
structure Core where
  subscribed : Bool
  attached : Bool
  visible : Bool
  observedOffline : Bool
  offlineOutstanding : Bool
  backgrounded : Bool
  paused : Bool
  source : Option ℕ
  reconnectTimer : Option ℕ
  watchdogTimer : Option ℕ
  openSources : List ℕ

def core (s : Live) : Core where
  subscribed := hasSubscribers s
  attached := s.attached
  visible := s.visible
  observedOffline := s.observedOffline
  offlineOutstanding := s.offlineOutstanding
  backgrounded := s.backgrounded
  paused := s.paused
  source := s.source
  reconnectTimer := s.reconnectTimer
  watchdogTimer := s.watchdogTimer
  openSources := s.openSources

namespace Core

def scheduled (delay : ℕ) (c : Core) : Core :=
  if c.observedOffline || c.reconnectTimer.isSome || !c.subscribed then c
  else { c with reconnectTimer := some delay }

def connected (id : ℕ) (c : Core) : Core :=
  { c with source := some id, watchdogTimer := some id, openSources := c.openSources ++ [id] }

def closed (c : Core) : Core :=
  { c with source := none, openSources := c.source.elim c.openSources c.openSources.erase }

end Core

section Quiet

@[simp] theorem core_notify (topic : Topic) (s : Live) : core (notify topic s) = core s := by
  unfold notify
  split <;> rfl

@[simp] theorem core_refreshBoth (s : Live) : core (refreshBoth s) = core s := by
  unfold refreshBoth
  split
  · rfl
  · rw [core_notify, core_notify]

@[simp] theorem core_publishStatus (delayed : Bool) (s : Live) :
    core (publishStatus delayed s) = core s := by
  unfold publishStatus
  split <;> rfl

@[simp] theorem core_armDelayedStatus (now : ℤ) (s : Live) :
    core (armDelayedStatus now s) = core s := by
  unfold armDelayedStatus
  split <;> rfl

@[simp] theorem core_connectionLost (now : ℤ) (s : Live) :
    core (connectionLost now s) = core s := by
  have hlost : core (armDelayedStatus now
      (setPollingInterval recoveryPollMs { s with streamConnected := false })) = core s := by
    rw [core_armDelayedStatus]
    rfl
  unfold connectionLost
  split
  · rw [core_refreshBoth, hlost]
  · exact hlost

@[simp] theorem core_connectionRestored (s : Live) : core (connectionRestored s) = core s := by
  have hset : ∀ t, core (setPollingInterval healthyPollMs t) = core t := fun _ => rfl
  rw [connectionRestored, hset, core_publishStatus]
  rfl

theorem core_scheduleReconnect (s : Live) :
    ∃ delay, core (scheduleReconnect s) = (core s).scheduled delay := by
  refine ⟨min maxReconnectDelayMs (reconnectDelayMs * 2 ^ s.reconnectAttempts), ?_⟩
  unfold scheduleReconnect Core.scheduled
  split
  · next h => exact (if_pos h).symm
  · next h => exact (if_neg h).symm

theorem core_closeSource (s : Live) : core (closeSource s) = (core s).closed := by
  unfold closeSource
  split
  · next id h => simp [core, Core.closed, hasSubscribers, h]
  · next h => simp [core, Core.closed, h]

/-- A new source is watched, or a reconnection is asked for. -/
theorem core_connect (construct : Construct) (now : ℤ) (s : Live) :
    (∃ delay, core (connect construct now s) = (core s).scheduled delay) ∨
      ∃ id, core (connect construct now s) = (core s).connected id := by
  have hlost : ∃ delay, core (scheduleReconnect (connectionLost now s)) =
      (core s).scheduled delay := by
    have h := core_scheduleReconnect (connectionLost now s)
    rw [core_connectionLost] at h
    exact h
  cases construct with
  | missing => exact Or.inl hlost
  | rejected => exact Or.inl hlost
  | opened => exact Or.inr ⟨s.created, rfl⟩

end Quiet

/-- The sources and the timers fit together. -/
structure Basic (c : Core) : Prop where
  outstanding : c.observedOffline = true → c.offlineOutstanding = true
  offline : c.observedOffline = true → c.source = none ∧ c.reconnectTimer = none
  only : ∀ id ∈ c.openSources, c.source = some id
  nodup : c.openSources.Nodup
  watched : ∀ id, c.watchdogTimer = some id → ∀ current, c.source = some current → current = id

/-- The page events are listened to exactly while there are subscribers. -/
structure Placed (c : Core) : Prop where
  basic : Basic c
  attached : c.attached = c.subscribed
  detached : c.attached = false →
    c.source = none ∧ c.observedOffline = false ∧ c.backgrounded = false

def Recovering (c : Core) : Prop := c.source.isSome = true ∨ c.reconnectTimer.isSome = true

def Watching (c : Core) : Prop :=
  c.visible = true → c.backgrounded = false → c.source.isSome = true →
    c.watchdogTimer.isSome = true ∨ c.reconnectTimer.isSome = true

/-- A wanted stream exists or will be asked for, and while it is shown it is watched. -/
structure Sound (c : Core) : Prop where
  placed : Placed c
  recovering : c.attached = true → c.observedOffline = false → Recovering c
  watching : c.attached = true → c.observedOffline = false → Watching c
  paused : c.visible = true → c.backgrounded = true → c.paused = true

theorem closed_basic {c : Core} (h : Basic c) : Basic c.closed where
  outstanding := h.outstanding
  offline hoff := ⟨rfl, (h.offline hoff).2⟩
  only id hid := by
    cases hsource : c.source with
    | none =>
      simp only [Core.closed, hsource, Option.elim_none] at hid
      have := h.only id hid
      rw [hsource] at this
      cases this
    | some current =>
      simp only [Core.closed, hsource, Option.elim_some] at hid
      have hsame := h.only id (List.mem_of_mem_erase hid)
      rw [hsource] at hsame
      obtain rfl := Option.some.inj hsame
      exact absurd hid (h.nodup.not_mem_erase)
  nodup := by
    cases hsource : c.source with
    | none => simpa only [Core.closed, hsource, Option.elim_none] using h.nodup
    | some current =>
      simpa only [Core.closed, hsource, Option.elim_some] using h.nodup.erase current
  watched _ _ current hcurrent := by cases hcurrent

theorem scheduled_basic {c : Core} (delay : ℕ) (h : Basic c) : Basic (c.scheduled delay) := by
  unfold Core.scheduled
  split
  · exact h
  · next hwanted =>
    simp only [Bool.or_eq_true, not_or, Bool.not_eq_true] at hwanted
    exact ⟨h.outstanding, fun hoff => absurd hoff (by simp [hwanted.1.1]), h.only, h.nodup,
      h.watched⟩

theorem scheduled_timer {c : Core} (delay : ℕ) (hoff : c.observedOffline = false)
    (hsub : c.subscribed = true) : (c.scheduled delay).reconnectTimer.isSome = true := by
  unfold Core.scheduled
  split
  · next hwanted => simpa [hoff, hsub] using hwanted
  · rfl

theorem connected_basic {c : Core} (id : ℕ) (h : Basic c) (hoff : c.observedOffline = false)
    (hnone : c.source = none) : Basic (c.connected id) := by
  have hempty : c.openSources = [] := by
    apply List.eq_nil_iff_forall_not_mem.mpr
    intro id hid
    have := h.only id hid
    rw [hnone] at this
    cases this
  refine ⟨h.outstanding, fun hoff' => absurd hoff' (by simp [Core.connected, hoff]), ?_, ?_, ?_⟩
  · intro id' hid'
    simp only [Core.connected, hempty, List.nil_append, List.mem_singleton] at hid'
    rw [hid']
    rfl
  · simp [Core.connected, hempty]
  · intro id' hid' current hcurrent
    rw [← Option.some.inj hid', ← Option.some.inj hcurrent]

/-- A connection that is wanted repairs the stream, however the browser answers. -/
theorem connect_repairs {s : Live} (construct : Construct) (now : ℤ) (h : Basic (core s))
    (hoff : s.observedOffline = false) (hsub : hasSubscribers s = true) (hnone : s.source = none) :
    ∃ c, core (connect construct now s) = c ∧ Basic c ∧ Recovering c ∧ Watching c ∧
      c.attached = s.attached ∧ c.subscribed = true ∧ c.observedOffline = false ∧
      c.visible = s.visible ∧ c.backgrounded = s.backgrounded ∧ c.paused = s.paused := by
  rcases core_connect construct now s with ⟨delay, hcore⟩ | ⟨id, hcore⟩
  · have htimer := scheduled_timer (c := core s) delay hoff hsub
    refine ⟨_, hcore, scheduled_basic delay h, Or.inr htimer, fun _ _ _ => Or.inr htimer, ?_⟩
    unfold Core.scheduled
    split <;> exact ⟨rfl, hsub, hoff, rfl, rfl, rfl⟩
  · exact ⟨_, hcore, connected_basic id h hoff hnone, Or.inl rfl, fun _ _ _ => Or.inl rfl,
      rfl, hsub, hoff, rfl, rfl, rfl⟩

theorem retry_sound {s : Live} (construct : Construct) (now : ℤ) (h : Placed (core s))
    (hpaused : s.visible = true → s.backgrounded = true → s.paused = true) :
    Sound (core (retryLiveConnection construct now s)) := by
  unfold retryLiveConnection
  split
  · next hunwanted =>
    have hvacuous : ¬ ((core s).attached = true ∧ (core s).observedOffline = false) := by
      intro hwanted
      have hsub : hasSubscribers s = true := h.attached.symm.trans hwanted.1
      have hoff : s.observedOffline = false := hwanted.2
      simp [hsub, hoff] at hunwanted
    exact ⟨h, fun ha ho => absurd ⟨ha, ho⟩ hvacuous, fun ha ho => absurd ⟨ha, ho⟩ hvacuous, hpaused⟩
  · next hwanted =>
    simp only [Bool.or_eq_true, not_or, Bool.not_eq_true, Bool.not_eq_false'] at hwanted
    obtain ⟨hsub, hoff⟩ := hwanted
    have hcleared : ∃ t, connectionLost now
        { closeSource { s with reconnectTimer := none, watchdogTimer := none } with
          reconnectAttempts := 0 } = t ∧
        core t = Core.closed { core s with reconnectTimer := none, watchdogTimer := none } := by
      refine ⟨_, rfl, ?_⟩
      rw [core_connectionLost]
      exact core_closeSource _
    obtain ⟨t, ht, hcore⟩ := hcleared
    have hbasic : Basic (core t) := by
      rw [hcore]
      apply closed_basic
      exact ⟨h.basic.outstanding, fun ho => ⟨(h.basic.offline ho).1, rfl⟩, h.basic.only,
        h.basic.nodup, fun id hid => by cases hid⟩
    have hattached : s.attached = true := h.attached.trans hsub
    have hcore' : ∀ {β : Type} (f : Core → β), f (core t) = f (Core.closed
        { core s with reconnectTimer := none, watchdogTimer := none }) := fun f => congrArg f hcore
    obtain ⟨c, hc, hbasic', hrecovering, hwatching, hatt, hsub', hoff', hvis, hback, hpause⟩ :=
      connect_repairs construct now hbasic ((hcore' Core.observedOffline).trans hoff)
        ((hcore' Core.subscribed).trans hsub) (hcore' Core.source)
    have hfinal : Sound c := by
      have hatt' : c.attached = true := hatt.trans ((hcore' Core.attached).trans hattached)
      refine ⟨⟨hbasic', hatt'.trans hsub'.symm, fun ha => ?_⟩, fun _ _ => hrecovering,
        fun _ _ => hwatching, ?_⟩
      · rw [hatt'] at ha
        cases ha
      · rw [hvis, hback, hpause]
        intro hv hb
        exact (hcore' Core.paused).trans
          (hpaused ((hcore' Core.visible).symm.trans hv) ((hcore' Core.backgrounded).symm.trans hb))
    dsimp only
    rw [ht]
    split
    · rw [hc]
      exact hfinal
    · rw [core_refreshBoth, hc]
      exact hfinal

/-- A page that goes to the background. -/
theorem pause_sound {s : Live} (h : Placed (core s)) (hattached : s.attached = true)
    (hrecovering : s.observedOffline = false → Recovering (core s))
    (hpaused : s.visible = true → s.paused = true) : Sound (core (pauseForBackground s)) where
  placed :=
    ⟨⟨h.basic.outstanding, h.basic.offline, h.basic.only, h.basic.nodup,
      fun id hid => by cases hid⟩, h.attached, fun ha => absurd (hattached.symm.trans ha) (by simp)⟩
  recovering _ := hrecovering
  watching _ _ := fun _ hback => by cases hback
  paused hvisible _ := hpaused hvisible

/-- A page that is shown again. -/
theorem visible_sound {s : Live} (construct : Construct) (now : ℤ) (h : Placed (core s))
    (hattached : s.attached = true)
    (hrecovering : s.observedOffline = false → Recovering (core s)) :
    Sound (core (visibleAgain construct now s)) := by
  unfold visibleAgain
  split
  · next hhidden =>
    rw [Bool.not_eq_true'] at hhidden
    exact pause_sound h hattached hrecovering fun hv => absurd (hhidden.symm.trans hv) (by simp)
  · next hshown =>
    have hresumed : ∃ t, (if s.backgrounded = true then
        { s with backgrounded := false, resumeGraceUntil := now + resumeStatusGraceMs }
        else s) = t ∧
          core t = { core s with backgrounded := false } := by
      refine ⟨_, rfl, ?_⟩
      split
      · rfl
      · next hback =>
        rw [Bool.not_eq_true] at hback
        simp [core, hback]
    obtain ⟨t, ht, hcore⟩ := hresumed
    have hplaced : Placed (core t) := by
      rw [hcore]
      exact ⟨⟨h.basic.outstanding, h.basic.offline, h.basic.only, h.basic.nodup, h.basic.watched⟩,
        h.attached, fun ha => absurd (hattached.symm.trans ha) (by simp)⟩
    have hback : t.backgrounded = false := congrArg Core.backgrounded hcore
    have hretry : Sound (core (retryLiveConnection construct now t)) :=
      retry_sound construct now hplaced fun _ hb => absurd (hback.symm.trans hb) (by simp)
    dsimp only
    rw [ht]
    split
    · next current hsource =>
      split
      · exact hretry
      · have harmed : core (armWatchdog current (refreshBoth t)) =
            { core t with watchdogTimer := some current } := by
          have hrefresh := core_refreshBoth t
          rw [← hrefresh]
          rfl
        have hsound : Sound { core t with watchdogTimer := some current } := by
          have hsome : (core t).source = some current := hsource
          refine ⟨⟨⟨hplaced.basic.outstanding, hplaced.basic.offline, hplaced.basic.only,
            hplaced.basic.nodup, ?_⟩, hplaced.attached, hplaced.detached⟩, ?_, ?_, ?_⟩
          · intro id hid current' hcurrent'
            rw [hsome] at hcurrent'
            rw [← Option.some.inj hid, ← Option.some.inj hcurrent']
          · intro _ _
            exact Or.inl (by rw [hsome]; rfl)
          · exact fun _ _ _ _ _ => Or.inl rfl
          · exact fun _ hb => absurd (hback.symm.trans hb) (by simp)
        split
        · rw [harmed]
          exact hsound
        · rw [core_armDelayedStatus, harmed]
          exact hsound
    · exact hretry

/-- The loss of the network. -/
theorem offline_sound {s : Live} (now : ℤ) (h : Placed (core s)) (hattached : s.attached = true)
    (houtstanding : s.offlineOutstanding = true)
    (hpaused : s.visible = true → s.backgrounded = true → s.paused = true) :
    Sound (core (offline now s)) := by
  have hcore : core (offline now s) = Core.closed
      { core s with observedOffline := true, reconnectTimer := none, watchdogTimer := none } := by
    rw [offline, core_connectionLost, core_closeSource]
    rfl
  have hcleared : Basic
      { core s with
        observedOffline := false, reconnectTimer := none, watchdogTimer := none } :=
    ⟨fun ho => (by cases ho), fun ho => (by cases ho), h.basic.only, h.basic.nodup,
      fun id hid => (by cases hid)⟩
  have hclosed := closed_basic hcleared
  rw [hcore]
  refine ⟨⟨⟨fun _ => houtstanding, fun _ => ⟨rfl, rfl⟩, hclosed.only, hclosed.nodup,
    hclosed.watched⟩,
    h.attached, fun ha => absurd (hattached.symm.trans ha) (by simp)⟩, ?_, ?_, hpaused⟩
  · exact fun _ ho => by cases ho
  · exact fun _ ho => by cases ho

theorem online_sound {s : Live} (construct : Construct) (now : ℤ) (hattached : s.attached = true)
    (hbasic : Basic { core s with observedOffline := false }) (hsub : s.attached = hasSubscribers s)
    (hrecovering : s.observedOffline = false → Recovering (core s))
    (hpaused : s.visible = true → s.backgrounded = true → s.paused = true) :
    Sound (core (onlineAgain construct now s)) := by
  have hdetached : ∀ {P : Prop}, s.attached = false → P := fun ha => by
    rw [hattached] at ha
    cases ha
  unfold onlineAgain
  split
  · exact retry_sound construct now ⟨hbasic, hsub, fun ha => hdetached ha⟩ hpaused
  · next hoff =>
    rw [Bool.not_eq_true] at hoff
    have hcore : core s = { core s with observedOffline := false } := by simp [core, hoff]
    refine visible_sound construct now ⟨?_, hsub, fun ha => hdetached ha⟩ hattached hrecovering
    rw [hcore]
    exact hbasic

/-- The first subscription asks for a stream. -/
theorem start_sound {s : Live} (construct : Construct) (now : ℤ) (h : Basic (core s))
    (hsub : hasSubscribers s = true) (hnone : s.source = none) (hoff : s.observedOffline = false)
    (hback : s.backgrounded = false) : Sound (core (start construct now s)) := by
  have hlost := core_connectionLost now s
  have hlost' : ∀ {β : Type} (f : Core → β), f (core (connectionLost now s)) = f (core s) :=
    fun f => congrArg f hlost
  obtain ⟨c, hc, hbasic, hrecovering, hwatching, _, hsub', hoff', _, hback', _⟩ :=
    connect_repairs construct now (by rw [hlost]; exact h)
      ((hlost' Core.observedOffline).trans hoff)
      ((hlost' Core.subscribed).trans hsub) ((hlost' Core.source).trans hnone)
  have hcore : core (start construct now s) = { c with attached := true } := by
    rw [← hc]
    rfl
  rw [hcore]
  refine ⟨⟨⟨hbasic.outstanding, hbasic.offline, hbasic.only, hbasic.nodup, hbasic.watched⟩,
    hsub'.symm, fun ha => by cases ha⟩, fun _ _ => hrecovering, fun _ _ => hwatching, ?_⟩
  intro _ hb
  have hfalse : c.backgrounded = false := hback'.trans ((hlost' Core.backgrounded).trans hback)
  exact absurd (hfalse.symm.trans hb) (by simp)

theorem stop_sound {s : Live} (h : Basic (core s)) (hsub : hasSubscribers s = false) :
    Sound (core (stop s)) := by
  have hcore : core (stop s) =
      { Core.closed (core s) with
        attached := false, observedOffline := false, backgrounded := false, reconnectTimer := none,
        watchdogTimer := none } := by
    have hquiet : ∀ t, core { publishStatus false t with attached := false } =
        { core t with attached := false } := by
      intro t
      rw [← core_publishStatus false t]
      rfl
    rw [stop, hquiet, ← core_closeSource]
    rfl
  have hclosed := closed_basic h
  rw [hcore]
  refine ⟨⟨⟨fun ho => (by cases ho), fun ho => (by cases ho), hclosed.only, hclosed.nodup,
    fun id hid => (by cases hid)⟩, hsub.symm, fun _ => ⟨rfl, rfl, rfl⟩⟩, ?_, ?_, ?_⟩
  · exact fun ha => by cases ha
  · exact fun ha => by cases ha
  · exact fun _ hb => by cases hb

theorem Sound.detached_of {s : Live} (h : Sound (core s)) (hsub : hasSubscribers s = false) :
    s.source = none ∧ s.observedOffline = false ∧ s.backgrounded = false :=
  h.placed.detached (h.placed.attached.trans hsub)

/-- A new subscription keeps the stream that others asked for, or starts it. -/
theorem subscribed_sound {s t : Live} (construct : Construct) (now : ℤ) (h : Sound (core s))
    (hcore : core t = { core s with subscribed := true }) :
    Sound (core (if hasSubscribers s then t else start construct now t)) := by
  have hcore' : ∀ {β : Type} (f : Core → β), f (core t) = f { core s with subscribed := true } :=
    fun f => congrArg f hcore
  split
  · next hsub =>
    have hsame : core t = core s := by
      rw [hcore]
      simp [core, hsub]
    rw [hsame]
    exact h
  · next hsub =>
    rw [Bool.not_eq_true] at hsub
    obtain ⟨hnone, hoff, hback⟩ := h.detached_of hsub
    have hbasic : Basic (core t) := by
      rw [hcore]
      exact ⟨h.placed.basic.outstanding, h.placed.basic.offline, h.placed.basic.only,
        h.placed.basic.nodup, h.placed.basic.watched⟩
    exact start_sound construct now hbasic (hcore' Core.subscribed)
      ((hcore' Core.source).trans hnone)
      ((hcore' Core.observedOffline).trans hoff) ((hcore' Core.backgrounded).trans hback)

theorem unsubscribed_sound {s t : Live} (h : Sound (core s))
    (hcore : core t = { core s with subscribed := hasSubscribers t })
    (hfewer : hasSubscribers t = true → hasSubscribers s = true) : Sound (core (stopUnused t)) := by
  unfold stopUnused
  split
  · next hsub =>
    have hsame : core t = core s := by
      rw [hcore]
      simp [core, hsub, hfewer hsub]
    rw [hsame]
    exact h
  · next hsub =>
    rw [Bool.not_eq_true] at hsub
    refine stop_sound ?_ hsub
    rw [hcore]
    exact ⟨h.placed.basic.outstanding, h.placed.basic.offline, h.placed.basic.only,
      h.placed.basic.nodup, h.placed.basic.watched⟩

/-- A watchdog that is set again on the stream that exists. -/
theorem armed_sound {c : Core} (id : ℕ) (h : Sound c) (hsource : c.source = some id) :
    Sound { c with watchdogTimer := some id } where
  placed :=
    ⟨⟨h.placed.basic.outstanding, h.placed.basic.offline, h.placed.basic.only, h.placed.basic.nodup,
      fun id' hid' current hcurrent => by
        rw [hsource] at hcurrent
        rw [← Option.some.inj hid', ← Option.some.inj hcurrent]⟩,
      h.placed.attached, h.placed.detached⟩
  recovering := h.recovering
  watching _ _ := fun _ _ _ => Or.inl rfl
  paused := h.paused

/-- A reconnection that is asked for repairs a stream whose watchdog is not set. -/
theorem scheduled_sound {c : Core} (delay : ℕ) (hplaced : Placed c)
    (hrecovering : c.attached = true → c.observedOffline = false → Recovering c)
    (hpaused : c.visible = true → c.backgrounded = true → c.paused = true) :
    Sound (c.scheduled delay) := by
  have hbasic := scheduled_basic delay hplaced.basic
  have htimer : c.attached = true → c.observedOffline = false →
      (c.scheduled delay).reconnectTimer.isSome = true := by
    intro hattached hoff
    exact scheduled_timer delay hoff (hplaced.attached.symm.trans hattached)
  revert hbasic htimer
  unfold Core.scheduled
  split
  · intro hbasic htimer
    exact ⟨hplaced, hrecovering, fun ha ho _ _ _ => Or.inr (htimer ha ho), hpaused⟩
  · intro hbasic htimer
    exact ⟨⟨hbasic, hplaced.attached, hplaced.detached⟩, fun _ _ => Or.inr rfl,
      fun _ _ _ _ _ => Or.inr rfl, hpaused⟩

theorem error_sound {s : Live} (id : ℕ) (closed : Bool) (now : ℤ) (h : Sound (core s)) :
    Sound (core (sourceError id closed now s)) := by
  have hfailed : ∃ t, (if closed = true then { s with openSources := s.openSources.erase id }
      else s) = t ∧
      core t = { core s with openSources := t.openSources } ∧
        t.openSources.Sublist s.openSources := by
    refine ⟨_, rfl, ?_⟩
    split
    · exact ⟨rfl, List.erase_sublist⟩
    · exact ⟨rfl, List.Sublist.refl _⟩
  obtain ⟨t, ht, hcore, hsublist⟩ := hfailed
  have hsound : Sound (core t) := by
    rw [hcore]
    exact ⟨⟨⟨h.placed.basic.outstanding, h.placed.basic.offline,
      fun id' hid' => h.placed.basic.only id' (hsublist.subset hid'),
      h.placed.basic.nodup.sublist hsublist, h.placed.basic.watched⟩, h.placed.attached,
      h.placed.detached⟩, h.recovering, h.watching, h.paused⟩
  unfold sourceError
  dsimp only
  rw [ht]
  split
  · split
    · rw [core_connectionLost]
      exact hsound
    · obtain ⟨delay, hdelay⟩ := core_scheduleReconnect (connectionLost now t)
      rw [hdelay, core_connectionLost]
      exact scheduled_sound delay hsound.placed hsound.recovering hsound.paused
  · exact hsound

theorem frame_sound {s : Live} (id : ℕ) (frame : Frame) (now : ℤ) (h : Sound (core s)) :
    Sound (core (sourceFrame id frame now s)) := by
  unfold sourceFrame
  split
  · next hsource =>
    have hrestored : core
        (connectionRestored { armWatchdog id { s with lastStreamFrameAt := now } with
        reconnectAttempts := 0 }) = { core s with watchdogTimer := some id } := by
      rw [core_connectionRestored]
      rfl
    have hsound := armed_sound id h hsource.1
    cases frame with
    | sync =>
      rw [core_refreshBoth, hrestored]
      exact hsound
    | topic t =>
      rw [core_notify, hrestored]
      exact hsound
    | ping =>
      rw [hrestored]
      exact hsound
  · exact h

theorem watchdog_sound {s : Live} (now : ℤ) (h : Sound (core s)) :
    Sound (core (watchdogTimeout now s)) := by
  unfold watchdogTimeout
  split
  · next current htimer =>
    have hplaced : Placed { core s with watchdogTimer := none } :=
      ⟨⟨h.placed.basic.outstanding, h.placed.basic.offline, h.placed.basic.only,
        h.placed.basic.nodup, fun id hid => (by cases hid)⟩, h.placed.attached, h.placed.detached⟩
    dsimp only
    split
    · next hstale =>
      refine ⟨hplaced, h.recovering, ?_, h.paused⟩
      intro ha ho hvisible _ hsource
      rcases hstale with hother | hhidden
      · obtain ⟨id, hid⟩ := Option.isSome_iff_exists.mp hsource
        have hsame := h.placed.basic.watched current htimer id hid
        exact absurd (hsame ▸ hid) hother
      · exact absurd (hvisible.symm.trans hhidden) (by simp)
    · next hshown =>
      rw [not_or, not_not] at hshown
      split
      · exact armed_sound current h hshown.1
      · obtain ⟨delay, hdelay⟩ :=
          core_scheduleReconnect (connectionLost now { s with watchdogTimer := none })
        rw [hdelay, core_connectionLost]
        exact scheduled_sound delay hplaced h.recovering h.paused
  · exact h

theorem reconnect_sound {s : Live} (construct : Construct) (now : ℤ) (h : Sound (core s)) :
    Sound (core (reconnectTimeout construct now s)) := by
  unfold reconnectTimeout
  split
  · next delay htimer =>
    have hoff : s.observedOffline = false := by
      rw [← Bool.not_eq_true]
      intro hoff
      have hnone : s.reconnectTimer = none := (h.placed.basic.offline hoff).2
      rw [htimer] at hnone
      cases hnone
    dsimp only
    split
    · next hsub =>
      have hfired : Basic { core s with reconnectTimer := none } :=
        ⟨h.placed.basic.outstanding, fun ho => ⟨(h.placed.basic.offline ho).1, rfl⟩,
          h.placed.basic.only, h.placed.basic.nodup, h.placed.basic.watched⟩
      have hclosed : core (closeSource { s with reconnectTimer := none }) =
          Core.closed { core s with reconnectTimer := none } := core_closeSource _
      have hcore : ∀ {β : Type} (f : Core → β),
          f (core (closeSource { s with reconnectTimer := none })) =
          f (Core.closed { core s with reconnectTimer := none }) := fun f => congrArg f hclosed
      obtain ⟨c, hc, hbasic, hrecovering, hwatching, hatt, hsub', hoff', hvis, hback, hpause⟩ :=
        connect_repairs construct now (by rw [hclosed]; exact closed_basic hfired)
          ((hcore Core.observedOffline).trans hoff) ((hcore Core.subscribed).trans hsub)
          (hcore Core.source)
      have hattached : c.attached = true :=
        hatt.trans ((hcore Core.attached).trans (h.placed.attached.trans hsub))
      rw [hc]
      refine ⟨⟨hbasic, hattached.trans hsub'.symm, fun ha => ?_⟩, fun _ _ => hrecovering,
        fun _ _ => hwatching, ?_⟩
      · rw [hattached] at ha
        cases ha
      · rw [hvis, hback, hpause]
        intro hv hb
        exact (hcore Core.paused).trans
          (h.paused ((hcore Core.visible).symm.trans hv) ((hcore Core.backgrounded).symm.trans hb))
    · next hsub =>
      have hsub' : hasSubscribers s = false := by
        rw [← Bool.not_eq_true]
        exact hsub
      have hdetached : s.attached = false := h.placed.attached.trans hsub'
      refine ⟨⟨⟨h.placed.basic.outstanding, fun ho => ⟨(h.placed.basic.offline ho).1, rfl⟩,
        h.placed.basic.only, h.placed.basic.nodup, h.placed.basic.watched⟩, h.placed.attached,
        h.placed.detached⟩, ?_, ?_, h.paused⟩
      · exact fun ha => absurd (hdetached.symm.trans ha) (by simp)
      · exact fun ha => absurd (hdetached.symm.trans ha) (by simp)
  · exact h

theorem quiet_sound {s : Live} (h : Sound (core s)) :
    Sound (core (statusTimeout s)) ∧ Sound (core (pollTick s)) := by
  have hfired : core { s with statusTimer := none } = core s := rfl
  refine ⟨?_, ?_⟩
  · unfold statusTimeout
    split
    · dsimp only
      split
      · rw [core_publishStatus, hfired]
        exact h
      · rw [hfired]
        exact h
    · exact h
  · unfold pollTick
    split
    · rw [core_refreshBoth]
      exact h
    · exact h

theorem hasSubscribers_setListeners {topic : Topic} {s : Live} {f : List ℕ → List ℕ}
    (hf : ∀ ls, ls = [] → f ls = []) (h : hasSubscribers (setListeners topic f s) = true) :
    hasSubscribers s = true := by
  cases topic with
  | jobs =>
    by_cases hempty : s.jobs = []
    · simpa [hasSubscribers, setListeners, hempty, hf] using h
    · simp [hasSubscribers, hempty]
  | chats =>
    by_cases hempty : s.chats = []
    · simpa [hasSubscribers, setListeners, hempty, hf] using h
    · simp [hasSubscribers, hempty]

theorem addListener_ne_nil (listener : ℕ) (ls : List ℕ) :
    (addListener listener ls).isEmpty = false := by
  unfold addListener
  split
  · next h => simpa using List.ne_nil_of_mem h
  · simp

/-- An event of the page that nobody listens to. -/
theorem unheard_sound {s : Live} (h : Sound (core s)) (hattached : s.attached = false)
    (visible outstanding paused : Bool) :
    Sound (core { s with
      visible := visible, offlineOutstanding := outstanding, paused := paused }) := by
  obtain ⟨_, hoff, hback⟩ := h.placed.detached hattached
  refine ⟨⟨⟨?_, h.placed.basic.offline, h.placed.basic.only, h.placed.basic.nodup,
    h.placed.basic.watched⟩, h.placed.attached, h.placed.detached⟩, ?_, ?_, ?_⟩
  · exact fun ho => absurd (hoff.symm.trans ho) (by simp)
  · exact fun ha => absurd (hattached.symm.trans ha) (by simp)
  · exact fun ha => absurd (hattached.symm.trans ha) (by simp)
  · exact fun _ hb => absurd (hback.symm.trans hb) (by simp)

/-- A page that is shown or hidden, or comes back from the cache of the browser. -/
theorem page_sound {s : Live} (construct : Construct) (now : ℤ) (visible paused : Bool)
    (h : Sound (core s)) (hattached : s.attached = true) :
    Sound (core (visibleAgain construct now { s with visible := visible, paused := paused })) :=
  visible_sound construct now
    ⟨⟨h.placed.basic.outstanding, h.placed.basic.offline, h.placed.basic.only, h.placed.basic.nodup,
      h.placed.basic.watched⟩, h.placed.attached, h.placed.detached⟩ hattached
        (h.recovering hattached)

theorem handle_sound {s : Live} (call : Call) (h : Sound (core s)) :
    Sound (core (handle call s)) := by
  obtain ⟨event, now, construct⟩ := call
  cases event with
  | subscribe topic listener =>
    refine subscribed_sound construct now h ?_
    cases topic <;> simp [setListeners, core, hasSubscribers, addListener_ne_nil]
  | unsubscribe topic listener =>
    refine unsubscribed_sound h ?_ fun hsub => hasSubscribers_setListeners (by simp) hsub
    cases topic <;> rfl
  | subscribeStatus listener =>
    refine subscribed_sound construct now h ?_
    simp [core, hasSubscribers, addListener_ne_nil]
  | unsubscribeStatus listener =>
    refine unsubscribed_sound h rfl ?_
    intro hsub
    by_cases hempty : s.statusListeners = []
    · simpa [hasSubscribers, hempty] using hsub
    · simp [hasSubscribers, hempty]
  | sourceOpen id =>
    show Sound (core (sourceOpen id now s))
    unfold sourceOpen
    split
    · next hsource => exact armed_sound id h hsource
    · exact h
  | sourceError id closed => exact error_sound id closed now h
  | sourceFrame id frame => exact frame_sound id frame now h
  | watchdogTimeout => exact watchdog_sound now h
  | reconnectTimeout => exact reconnect_sound construct now h
  | statusTimeout => exact (quiet_sound h).1
  | pollTick => exact (quiet_sound h).2
  | retry => exact retry_sound construct now h.placed h.paused
  | online =>
    simp only [handle]
    split
    · next hattached =>
      exact online_sound construct now hattached
        ⟨fun ho => (by cases ho), fun ho => (by cases ho), h.placed.basic.only,
          h.placed.basic.nodup, h.placed.basic.watched⟩ h.placed.attached
            (h.recovering hattached) h.paused
    · next hattached =>
      rw [Bool.not_eq_true] at hattached
      exact unheard_sound h hattached s.visible false s.paused
  | offline =>
    simp only [handle]
    split
    · next hattached =>
      exact offline_sound now
        ⟨⟨fun _ => rfl, h.placed.basic.offline, h.placed.basic.only, h.placed.basic.nodup,
          h.placed.basic.watched⟩, h.placed.attached, h.placed.detached⟩ hattached rfl h.paused
    · next hattached =>
      rw [Bool.not_eq_true] at hattached
      exact unheard_sound h hattached s.visible true s.paused
  | visibilityChange visible =>
    simp only [handle]
    split
    · next hattached => exact page_sound construct now visible false h hattached
    · next hattached =>
      rw [Bool.not_eq_true] at hattached
      exact unheard_sound h hattached visible s.offlineOutstanding false
  | pageShow =>
    simp only [handle]
    split
    · next hattached => exact page_sound construct now s.visible false h hattached
    · next hattached =>
      rw [Bool.not_eq_true] at hattached
      exact unheard_sound h hattached s.visible s.offlineOutstanding false
  | pageHide =>
    simp only [handle]
    split
    · next hattached =>
      exact pause_sound
        ⟨⟨h.placed.basic.outstanding, h.placed.basic.offline, h.placed.basic.only,
          h.placed.basic.nodup, h.placed.basic.watched⟩, h.placed.attached, h.placed.detached⟩
        hattached (h.recovering hattached) fun _ => rfl
    · next hattached =>
      rw [Bool.not_eq_true] at hattached
      exact unheard_sound h hattached s.visible s.offlineOutstanding true

theorem initial_sound (visible : Bool) : Sound (core (initial visible)) where
  placed := ⟨⟨nofun, nofun, nofun, List.nodup_nil, nofun⟩, rfl, fun _ => ⟨rfl, rfl, rfl⟩⟩
  recovering := nofun
  watching := nofun
  paused _ hback := by cases hback

theorem run_sound (visible : Bool) (run : List Call) :
    Sound (core (final step (initial visible) run)) :=
  final_invariant step (fun _ => True) (fun s => Sound (core s))
    (fun _ call _ hs => handle_sound call hs)
    (initial visible) (initial_sound visible) run fun _ _ => True.intro

/-- While there are subscribers and the page is not offline, the stream exists or will be asked
for again; while it is shown, it is watched or will be replaced. There is one stream at most. -/
theorem live_updates_recover (visible : Bool) (run : List Call) :
    let s := final step (initial visible) run
    (hasSubscribers s = true → s.offlineOutstanding = false →
      (s.source.isSome = true ∨ s.reconnectTimer.isSome = true) ∧
        (s.visible = true → s.paused = false → s.source.isSome = true →
          s.watchdogTimer.isSome = true ∨ s.reconnectTimer.isSome = true)) ∧
    s.openSources.length ≤ 1 ∧ ∀ id ∈ s.openSources, s.source = some id := by
  have h := run_sound visible run
  refine ⟨?_, ?_, h.placed.basic.only⟩
  · intro hsub honline
    have hattached := h.placed.attached.trans hsub
    have hoff : (core (final step (initial visible) run)).observedOffline = false := by
      rw [← Bool.not_eq_true]
      intro hoff
      exact absurd (honline.symm.trans (h.placed.basic.outstanding hoff)) (by simp)
    refine ⟨h.recovering hattached hoff, ?_⟩
    intro hvisible hpaused hsource
    refine h.watching hattached hoff hvisible ?_ hsource
    rw [← Bool.not_eq_true]
    intro hback
    exact absurd (hpaused.symm.trans (h.paused hvisible hback)) (by simp)
  · have hone : ∀ a ∈ (final step (initial visible) run).openSources,
        ∀ b ∈ (final step (initial visible) run).openSources, a = b := by
      intro a ha b hb
      have hsame := (h.placed.basic.only a ha).symm.trans (h.placed.basic.only b hb)
      exact Option.some.inj hsame
    have hnodup : (final step (initial visible) run).openSources.Nodup := h.placed.basic.nodup
    generalize (final step (initial visible) run).openSources = sources at hone hnodup ⊢
    match sources with
    | [] => simp
    | [_] => simp
    | a :: b :: rest =>
      have hab : a = b := hone a (by simp) b (by simp)
      simp [hab] at hnodup

end Prompta.LiveUpdates
