import Mathlib.Data.Int.Notation
import Prompta.Runs

/-!
The notices at the bottom of the page. One notice is active and some wait for it; the notice of
an outage is raised by failed reads and by a delayed stream, and it hides the errors that come
of the outage.
-/
namespace Prompta.Toasts

open Runs

inductive ToastTone
  | error
  | warning
  | success
  | info
  deriving DecidableEq, Repr

/-- A notice with an action of some kind. -/
structure ToastNotice (α : Type*) where
  id : ℕ
  message : String
  tone : ToastTone
  action : Option α
  duration : ℤ
  outageSensitive : Bool

/-- The state of the module. A recovery timer is set or not. -/
structure State (α : Type*) where
  activeToast : Option (ToastNotice α) := none
  nextToastId : ℕ := 0
  waitingToasts : List (ToastNotice α) := []
  readUnavailable : Bool := false
  streamDelayed : Bool := false
  outageNotified : Bool := false
  outageToastId : Option ℕ := none
  recoveryTimer : Bool := false

def defaultDuration (tone : ToastTone) : ℤ := if tone = .error then 6500 else 2800

/-- The arguments of `notify`. -/
structure Request (α : Type*) where
  message : String
  tone : ToastTone := .info
  action : Option α := none
  duration : ℤ := defaultDuration tone
  replaceCurrent : Bool := false
  outageSensitive : Bool := false

def outageMessage : String := "Connection to Prompta interrupted. Reconnecting automatically."

def maxWaiting : ℕ := 4

variable {α : Type*}

def Request.notice (r : Request α) (id : ℕ) : ToastNotice α :=
  { id, message := r.message, tone := r.tone, action := r.action, duration := r.duration
    outageSensitive := r.outageSensitive }

/-- A notice with the same message and tone is not shown a second time. -/
def Request.repeats (r : Request α) (n : ToastNotice α) : Bool :=
  decide (n.message = r.message ∧ n.tone = r.tone)

/-- The oldest waiting notice makes room. -/
def enqueue (waiting : List (ToastNotice α)) (notice : ToastNotice α) : List (ToastNotice α) :=
  if maxWaiting < (waiting ++ [notice]).length then (waiting ++ [notice]).tail
    else waiting ++ [notice]

/-- What waits once the active notice is interrupted. -/
def requeue (waiting : List (ToastNotice α)) (current : ToastNotice α) (replaceCurrent : Bool) :
    List (ToastNotice α) :=
  if replaceCurrent = false ∧ 0 < current.duration then current :: waiting else waiting

/-- The place of a new notice. Feedback appears at once, and so does an error unless another one
is active; a notice that it interrupts waits, when it has a duration. -/
def place (s : State α) (notice : ToastNotice α) (replaceCurrent : Bool) : State α :=
  match s.activeToast with
  | none => { s with activeToast := some notice }
  | some current =>
    if notice.tone = .success ∨ notice.tone = .info then { s with activeToast := some notice }
    else if replaceCurrent = true ∨ (notice.tone = .error ∧ current.tone ≠ .error) then
      { s with activeToast := some notice
               waitingToasts := requeue s.waitingToasts current replaceCurrent }
    else { s with waitingToasts := enqueue s.waitingToasts notice }

/-- `notify`: the state, and the identifier of the notice that is shown. -/
def notify (s : State α) (r : Request α) : State α × ℕ :=
  if s.outageNotified = true ∧ r.outageSensitive = true then (s, s.outageToastId.getD 0)
  else
    match s.activeToast.filter r.repeats with
    | some current => (s, current.id)
    | none =>
      match s.waitingToasts.find? r.repeats with
      | some waiting => (s, waiting.id)
      | none =>
        let id := s.nextToastId + 1
        (place { s with nextToastId := id } (r.notice id) r.replaceCurrent, id)

def dismissToast (s : State α) (id : ℕ) : State α :=
  if s.activeToast.map ToastNotice.id = some id then
    { s with activeToast := s.waitingToasts.head?, waitingToasts := s.waitingToasts.tail }
  else { s with waitingToasts := s.waitingToasts.eraseP fun notice => decide (notice.id = id) }

def outageRequest : Request α :=
  { message := outageMessage, tone := .warning, duration := 0, replaceCurrent := true }

def showOutage (s : State α) : State α :=
  if s.outageNotified = true then s
  else
    let shown := notify
      { s with
        outageNotified := true
        waitingToasts := s.waitingToasts.filter fun notice => !notice.outageSensitive }
      outageRequest
    { shown.1 with outageToastId := some shown.2 }

def clearOutageIfHealthy (s : State α) : State α :=
  if s.readUnavailable = true ∨ s.streamDelayed = true ∨ s.outageNotified = false then s
  else
    let healthy := { s with outageNotified := false }
    let dismissed := match s.outageToastId with
      | some id => dismissToast healthy id
      | none => healthy
    { dismissed with outageToastId := none }

def reportBackendReadFailure (s : State α) : State α :=
  showOutage { s with recoveryTimer := false, readUnavailable := true }

/-- A success starts the recovery window anew. -/
def reportBackendReadSuccess (s : State α) : State α :=
  if s.readUnavailable = true then { s with recoveryTimer := true } else s

/-- The end of the recovery window, when one is running. -/
def recover (s : State α) : State α :=
  if s.recoveryTimer = true then
    clearOutageIfHealthy { s with recoveryTimer := false, readUnavailable := false }
  else s

def setLiveStreamDelayed (s : State α) (delayed : Bool) : State α :=
  let s := { s with streamDelayed := delayed }
  if delayed then showOutage s else clearOutageIfHealthy s

inductive Action (α : Type*)
  | notify (request : Request α)
  | dismiss (id : ℕ)
  | readFailure
  | readSuccess
  | recovery
  | streamDelayed (delayed : Bool)

def step (s : State α) : Action α → State α × Option ℕ
  | .notify request => ((notify s request).1, some (notify s request).2)
  | .dismiss id => (dismissToast s id, none)
  | .readFailure => (reportBackendReadFailure s, none)
  | .readSuccess => (reportBackendReadSuccess s, none)
  | .recovery => (recover s, none)
  | .streamDelayed delayed => (setLiveStreamDelayed s delayed, none)

def State.shown (s : State α) : List (ToastNotice α) := s.activeToast.toList ++ s.waitingToasts

def State.outage (s : State α) : Bool := s.readUnavailable || s.streamDelayed

def IsOutageNotice (n : ToastNotice α) : Prop := n.message = outageMessage ∧ n.tone = .warning

/-- An outage is shown, and nothing else is shown as one. -/
def Truthful (s : State α) : Prop :=
  (s.outage = true → ∃ n ∈ s.shown, IsOutageNotice n) ∧
    (s.outage = false → ∀ n ∈ s.shown, ¬IsOutageNotice n)

/-- A dismissal is not one of the outage notice. -/
def OtherDismissal (s : State α) : Action α → Prop
  | .dismiss id => ∀ n ∈ s.shown, n.id = id → ¬IsOutageNotice n
  | _ => True

/-- The request makes a new notice. -/
def Appears (s : State α) (r : Request α) : Prop :=
  ¬(s.outageNotified = true ∧ r.outageSensitive = true) ∧ ∀ n ∈ s.shown, r.repeats n = false

/-- While an outage is shown only a warning that replaces nothing is new, and without an outage
no new notice has its text. -/
def KeepsOutage (s : State α) : Action α → Prop
  | .notify r => Appears s r →
      if s.outage = true then r.tone = .warning ∧ r.replaceCurrent = false
      else ¬(r.message = outageMessage ∧ r.tone = .warning)
  | _ => True

/-- The outage is known exactly while its notice is the active one. -/
structure Linked (s : State α) : Prop where
  shown : s.outageNotified = true →
    ∃ n, s.activeToast = some n ∧ IsOutageNotice n ∧ n.duration = 0 ∧ s.outageToastId = some n.id
  hidden : s.outageNotified = false → ∀ n, s.activeToast = some n → ¬IsOutageNotice n
  waiting : ∀ n ∈ s.waitingToasts, ¬IsOutageNotice n

structure Sound (s : State α) : Prop extends Linked s where
  notified : s.outageNotified = s.outage

variable {s : State α} {r : Request α} {id : ℕ}

theorem mem_shown {n : ToastNotice α} :
    n ∈ s.shown ↔ s.activeToast = some n ∨ n ∈ s.waitingToasts := by
  rw [State.shown, List.mem_append, Option.mem_toList]

theorem Sound.truthful (h : Sound s) : Truthful s := by
  constructor
  · intro houtage
    obtain ⟨n, hactive, hnotice, _, _⟩ := h.shown (h.notified.trans houtage)
    exact ⟨n, mem_shown.mpr (Or.inl hactive), hnotice⟩
  · intro houtage n hn
    rcases mem_shown.mp hn with hactive | hwaiting
    · exact h.hidden (h.notified.trans houtage) n hactive
    · exact h.waiting n hwaiting

theorem notify_appears (h : Appears s r) :
    (notify s r).1 =
      place { s with nextToastId := s.nextToastId + 1 } (r.notice (s.nextToastId + 1))
        r.replaceCurrent ∧
    (notify s r).2 = s.nextToastId + 1 := by
  have hactive : s.activeToast.filter r.repeats = none := by
    rw [Option.filter_eq_none_iff]
    intro n hn
    rw [h.2 n (mem_shown.mpr (Or.inl hn))]
    exact Bool.false_ne_true
  have hwaiting : s.waitingToasts.find? r.repeats = none := by
    rw [List.find?_eq_none]
    intro n hn
    rw [h.2 n (mem_shown.mpr (Or.inr hn))]
    exact Bool.false_ne_true
  unfold notify
  rw [if_neg h.1, hactive]
  dsimp only
  rw [hwaiting]
  exact ⟨rfl, rfl⟩

theorem notify_silent (h : ¬Appears s r) : (notify s r).1 = s := by
  unfold notify
  split_ifs with hsuppressed
  · rfl
  · cases hactive : s.activeToast.filter r.repeats with
    | some current => rfl
    | none =>
      dsimp only
      cases hwaiting : s.waitingToasts.find? r.repeats with
      | some waiting => rfl
      | none =>
        exfalso
        apply h
        refine ⟨hsuppressed, ?_⟩
        intro n hn
        apply Bool.eq_false_iff.mpr
        rcases mem_shown.mp hn with hmem | hmem
        · exact Option.filter_eq_none_iff.mp hactive n hmem
        · exact List.find?_eq_none.mp hwaiting n hmem

theorem mem_enqueue (waiting : List (ToastNotice α)) (notice : ToastNotice α) :
    notice ∈ enqueue waiting notice := by
  unfold enqueue
  split_ifs with hfull
  · cases waiting with
    | nil =>
      have hshort : ([] ++ [notice]).length = 1 := rfl
      rw [hshort, maxWaiting] at hfull
      omega
    | cons _ rest => exact List.mem_append_right rest List.mem_cons_self
  · exact List.mem_append_right _ List.mem_cons_self

theorem of_mem_enqueue {waiting : List (ToastNotice α)} {notice n : ToastNotice α}
    (h : n ∈ enqueue waiting notice) : n ∈ waiting ∨ n = notice := by
  have hmem : n ∈ waiting ++ [notice] := by
    unfold enqueue at h
    split_ifs at h
    · exact List.mem_of_mem_tail h
    · exact h
  rcases List.mem_append.mp hmem with hwaiting | hnotice
  · exact Or.inl hwaiting
  · exact Or.inr (List.mem_singleton.mp hnotice)

/-- A new notice is shown. -/
theorem mem_place (notice : ToastNotice α) (replaceCurrent : Bool) :
    notice ∈ (place s notice replaceCurrent).shown := by
  apply mem_shown.mpr
  unfold place
  cases hactive : s.activeToast with
  | none => exact Or.inl rfl
  | some current =>
    dsimp only
    split_ifs with hfeedback hreplaces
    · exact Or.inl rfl
    · exact Or.inl rfl
    · exact Or.inr (mem_enqueue s.waitingToasts notice)

/-- A warning that replaces nothing waits behind the active notice. -/
theorem place_waiting {current notice : ToastNotice α} (hactive : s.activeToast = some current)
    (htone : notice.tone = .warning) :
    place s notice false = { s with waitingToasts := enqueue s.waitingToasts notice } := by
  unfold place
  rw [hactive, htone]
  rfl

/-- Any other notice takes the place of a warning without a duration, which is then gone. -/
theorem place_instead {current notice : ToastNotice α} {replaceCurrent : Bool}
    (hactive : s.activeToast = some current) (hcurrent : current.tone = .warning)
    (hduration : current.duration ≤ 0)
    (hnotice : ¬(notice.tone = .warning ∧ replaceCurrent = false)) :
    place s notice replaceCurrent = { s with activeToast := some notice } := by
  have hrequeue : requeue s.waitingToasts current replaceCurrent = s.waitingToasts := by
    unfold requeue
    rw [if_neg]
    intro h
    exact absurd h.2 (by omega)
  unfold place
  rw [hactive]
  dsimp only
  rw [hrequeue, hcurrent]
  split_ifs with hfeedback hreplaces
  · rfl
  · rfl
  · exfalso
    cases htone : notice.tone with
    | error => exact hreplaces (Or.inr ⟨htone, fun h => by cases h⟩)
    | warning =>
      apply hnotice
      exact ⟨htone, Bool.eq_false_iff.mpr fun h => hreplaces (Or.inl h)⟩
    | success => exact hfeedback (Or.inl htone)
    | info => exact hfeedback (Or.inr htone)

theorem notify_flags (s : State α) (r : Request α) :
    (notify s r).1.outageNotified = s.outageNotified ∧
      (notify s r).1.outageToastId = s.outageToastId ∧
      (notify s r).1.outage = s.outage := by
  by_cases h : Appears s r
  · rw [(notify_appears h).1]
    unfold place
    cases s.activeToast with
    | none => exact ⟨rfl, rfl, rfl⟩
    | some current =>
      dsimp only
      split_ifs <;> exact ⟨rfl, rfl, rfl⟩
  · rw [notify_silent h]
    exact ⟨rfl, rfl, rfl⟩

theorem place_replacing (s : State α) (notice : ToastNotice α) :
    place s notice true = { s with activeToast := some notice } := by
  unfold place
  cases s.activeToast with
  | none => rfl
  | some current =>
    dsimp only
    split_ifs with hfeedback
    · rfl
    · rw [requeue, if_neg (fun h => by cases h.1)]
    · exact absurd (Or.inl rfl) ‹_›

theorem of_mem_place {notice n : ToastNotice α} {replaceCurrent : Bool}
    (h : n ∈ (place s notice replaceCurrent).shown) : n ∈ s.shown ∨ n = notice := by
  unfold place at h
  cases hactive : s.activeToast with
  | none =>
    rw [hactive] at h
    rcases mem_shown.mp h with hnew | hwaiting
    · exact Or.inr (Option.some.inj hnew).symm
    · exact Or.inl (mem_shown.mpr (Or.inr hwaiting))
  | some current =>
    rw [hactive] at h
    dsimp only at h
    split_ifs at h
    · rcases mem_shown.mp h with hnew | hwaiting
      · exact Or.inr (Option.some.inj hnew).symm
      · exact Or.inl (mem_shown.mpr (Or.inr hwaiting))
    · rcases mem_shown.mp h with hnew | hwaiting
      · exact Or.inr (Option.some.inj hnew).symm
      · left
        apply mem_shown.mpr
        dsimp only at hwaiting
        unfold requeue at hwaiting
        split_ifs at hwaiting
        · rcases List.mem_cons.mp hwaiting with rfl | hwaiting
          · exact Or.inl hactive
          · exact Or.inr hwaiting
        · exact Or.inr hwaiting
    · rcases mem_shown.mp h with hold | hwaiting
      · exact Or.inl (mem_shown.mpr (Or.inl (hactive.trans hold)))
      · rcases of_mem_enqueue hwaiting with hwaiting | hnotice
        · exact Or.inl (mem_shown.mpr (Or.inr hwaiting))
        · exact Or.inr hnotice

theorem of_mem_dismiss {n : ToastNotice α} (h : n ∈ (dismissToast s id).shown) : n ∈ s.shown := by
  apply mem_shown.mpr
  unfold dismissToast at h
  split_ifs at h
  · rcases mem_shown.mp h with hhead | htail
    · exact Or.inr (List.mem_of_mem_head? hhead)
    · exact Or.inr (List.mem_of_mem_tail htail)
  · rcases mem_shown.mp h with hactive | hwaiting
    · exact Or.inl hactive
    · exact Or.inr (List.mem_of_mem_eraseP hwaiting)

/-- Without an outage nothing that is shown is its notice. -/
theorem linked_of_hidden (hnotified : s.outageNotified = false)
    (h : ∀ n ∈ s.shown, ¬IsOutageNotice n) : Linked s := by
  refine ⟨?_, ?_, ?_⟩
  · intro htrue
    exact absurd (hnotified.symm.trans htrue) Bool.false_ne_true
  · intro _ n hn
    exact h n (mem_shown.mpr (Or.inl hn))
  · intro n hn
    exact h n (mem_shown.mpr (Or.inr hn))

theorem Linked.none_shown (h : Linked s) (hnotified : s.outageNotified = false) :
    ∀ n ∈ s.shown, ¬IsOutageNotice n := by
  intro n hn
  rcases mem_shown.mp hn with hactive | hwaiting
  · exact h.hidden hnotified n hactive
  · exact h.waiting n hwaiting

theorem repeats_eq_true (n : ToastNotice α) :
    r.repeats n = true ↔ n.message = r.message ∧ n.tone = r.tone := decide_eq_true_iff

/-- Beside the outage notice no new notice has its text. -/
theorem Appears.other (h : Appears s r) {n : ToastNotice α} (hn : n ∈ s.shown)
    (houtage : IsOutageNotice n) : ¬(r.message = outageMessage ∧ r.tone = .warning) := by
  intro hr
  have hrepeats : r.repeats n = true :=
    (repeats_eq_true n).mpr ⟨houtage.1.trans hr.1.symm, houtage.2.trans hr.2.symm⟩
  rw [h.2 n hn] at hrepeats
  exact Bool.false_ne_true hrepeats

/-- A warning that replaces nothing keeps the link, and without an outage any other notice does. -/
theorem Linked.place (h : Linked s) {notice : ToastNotice α} {replaceCurrent : Bool}
    (hnotice : ¬IsOutageNotice notice)
    (hnotified : (place s notice replaceCurrent).outageNotified = s.outageNotified)
    (hkeeps : s.outageNotified = true → notice.tone = .warning ∧ replaceCurrent = false) :
    Linked (place s notice replaceCurrent) := by
  cases houtage : s.outageNotified with
  | true =>
    obtain ⟨n, hactive, _⟩ := h.shown houtage
    obtain ⟨htone, rfl⟩ := hkeeps houtage
    rw [place_waiting hactive htone]
    refine ⟨h.shown, h.hidden, ?_⟩
    intro m hm
    rcases of_mem_enqueue hm with hwaiting | rfl
    · exact h.waiting m hwaiting
    · exact hnotice
  | false =>
    apply linked_of_hidden (hnotified.trans houtage)
    intro n hn
    rcases of_mem_place hn with hshown | rfl
    · exact h.none_shown houtage n hshown
    · exact hnotice

theorem Sound.notify (h : Sound s) (hkeeps : KeepsOutage s (.notify r)) : Sound (notify s r).1 := by
  by_cases happears : Appears s r
  · obtain ⟨hnotified, _, houtage⟩ := notify_flags s r
    refine ⟨?_, by rw [hnotified, houtage, h.notified]⟩
    rw [(notify_appears happears).1] at hnotified ⊢
    have hcondition := hkeeps happears
    have hother : ¬(r.message = outageMessage ∧ r.tone = .warning) := by
      cases hout : s.outage with
      | true =>
        obtain ⟨n, hactive, hnotice, _⟩ := h.shown (h.notified.trans hout)
        exact happears.other (mem_shown.mpr (Or.inl hactive)) hnotice
      | false =>
        rw [hout] at hcondition
        exact hcondition
    have hlinked : Linked { s with nextToastId := s.nextToastId + 1 } :=
      ⟨h.shown, h.hidden, h.waiting⟩
    apply hlinked.place (show ¬IsOutageNotice (r.notice _) from hother) hnotified
    intro htrue
    rw [if_pos (h.notified.symm.trans htrue)] at hcondition
    exact hcondition
  · rw [notify_silent happears]
    exact h

theorem Linked.dismiss (h : Linked s) (hother : ∀ n ∈ s.shown, n.id = id → ¬IsOutageNotice n) :
    Linked (dismissToast s id) := by
  by_cases hactive : s.activeToast.map ToastNotice.id = some id
  · obtain ⟨n, hn, hid⟩ := Option.map_eq_some_iff.mp hactive
    have hnotice := hother n (mem_shown.mpr (Or.inl hn)) hid
    have hnotified : s.outageNotified = false := by
      apply Bool.eq_false_iff.mpr
      intro htrue
      obtain ⟨m, hm, houtage, _⟩ := h.shown htrue
      rw [hn] at hm
      exact hnotice (Option.some.inj hm ▸ houtage)
    apply linked_of_hidden
    · unfold dismissToast
      rw [if_pos hactive]
      exact hnotified
    · intro m hm
      exact h.none_shown hnotified m (of_mem_dismiss hm)
  · unfold dismissToast
    rw [if_neg hactive]
    exact ⟨h.shown, h.hidden, fun n hn => h.waiting n (List.mem_of_mem_eraseP hn)⟩

theorem dismiss_flags (s : State α) (id : ℕ) :
    (dismissToast s id).outageNotified = s.outageNotified ∧
    (dismissToast s id).outage = s.outage := by
  unfold dismissToast
  split_ifs <;> exact ⟨rfl, rfl⟩

theorem Sound.dismiss (h : Sound s) (hother : ∀ n ∈ s.shown, n.id = id → ¬IsOutageNotice n) :
    Sound (dismissToast s id) := by
  obtain ⟨hnotified, houtage⟩ := dismiss_flags s id
  exact ⟨h.toLinked.dismiss hother, by rw [hnotified, houtage, h.notified]⟩

/-- The outage notice becomes the active one, without waiting. -/
theorem Linked.showOutage (h : Linked s) :
    Linked (showOutage s) ∧ (showOutage s).outageNotified = true ∧
      (showOutage s).outage = s.outage := by
  by_cases hnotified : s.outageNotified = true
  · unfold Toasts.showOutage
    rw [if_pos hnotified]
    exact ⟨h, hnotified, rfl⟩
  · have hnone := h.none_shown (Bool.eq_false_iff.mpr hnotified)
    have hwaiting : ∀ n ∈ s.waitingToasts.filter (fun notice => !notice.outageSensitive),
        ¬IsOutageNotice n := fun n hn => h.waiting n (List.mem_of_mem_filter hn)
    have happears : Appears
        { s with
          outageNotified := true
          waitingToasts := s.waitingToasts.filter fun notice => !notice.outageSensitive }
        outageRequest := by
      refine ⟨fun hsensitive => Bool.false_ne_true hsensitive.2, ?_⟩
      intro n hn
      apply Bool.eq_false_iff.mpr
      intro hrepeats
      have hnotice : IsOutageNotice n := (repeats_eq_true n).mp hrepeats
      rcases mem_shown.mp hn with hactive | hfiltered
      · exact hnone n (mem_shown.mpr (Or.inl hactive)) hnotice
      · exact hwaiting n hfiltered hnotice
    unfold Toasts.showOutage
    rw [if_neg hnotified]
    dsimp only
    rw [(notify_appears happears).1, (notify_appears happears).2,
      show (outageRequest : Request α).replaceCurrent = true from rfl, place_replacing]
    refine ⟨⟨?_, ?_, hwaiting⟩, rfl, rfl⟩
    · intro _
      exact ⟨_, rfl, ⟨rfl, rfl⟩, rfl, rfl⟩
    · intro hfalse
      cases hfalse

/-- The notice goes once nothing is wrong. -/
theorem Linked.clearOutage (h : Linked s) :
    Linked (clearOutageIfHealthy s) ∧
      (clearOutageIfHealthy s).outageNotified = (s.outageNotified && s.outage) ∧
      (clearOutageIfHealthy s).outage = s.outage := by
  unfold clearOutageIfHealthy
  split_ifs with hstays
  · refine ⟨h, ?_, rfl⟩
    rcases hstays with hread | hstream | hnotified
    · rw [State.outage, hread, Bool.true_or, Bool.and_true]
    · rw [State.outage, hstream, Bool.or_true, Bool.and_true]
    · rw [hnotified, Bool.false_and]
  · have hnotified : s.outageNotified = true := by
      cases hvalue : s.outageNotified with
      | true => rfl
      | false => exact absurd (Or.inr (Or.inr hvalue)) hstays
    have houtage : s.outage = false := by
      apply Bool.eq_false_iff.mpr
      intro htrue
      rcases Bool.or_eq_true _ _ |>.mp htrue with hread | hstream
      · exact hstays (Or.inl hread)
      · exact hstays (Or.inr (Or.inl hstream))
    obtain ⟨n, hactive, _, _, hid⟩ := h.shown hnotified
    rw [hid, houtage, Bool.and_false]
    dsimp only
    unfold dismissToast
    rw [if_pos (by rw [hactive]; rfl)]
    refine ⟨?_, rfl, houtage⟩
    apply linked_of_hidden rfl
    intro m hm
    rcases mem_shown.mp hm with hhead | htail
    · exact h.waiting m (List.mem_of_mem_head? hhead)
    · exact h.waiting m (List.mem_of_mem_tail htail)

theorem sound_step {a : Action α} (hother : OtherDismissal s a) (hkeeps : KeepsOutage s a)
    (h : Sound s) : Sound (step s a).1 := by
  cases a with
  | notify r => exact h.notify hkeeps
  | dismiss id => exact h.dismiss hother
  | readFailure =>
    have hlinked : Linked { s with recoveryTimer := false, readUnavailable := true } :=
      ⟨h.shown, h.hidden, h.waiting⟩
    obtain ⟨hshown, hnotified, houtage⟩ := hlinked.showOutage
    exact ⟨hshown, hnotified.trans houtage.symm⟩
  | readSuccess =>
    show Sound (reportBackendReadSuccess s)
    unfold reportBackendReadSuccess
    split_ifs
    · exact ⟨⟨h.shown, h.hidden, h.waiting⟩, h.notified⟩
    · exact h
  | recovery =>
    show Sound (recover s)
    unfold recover
    split_ifs
    · have hlinked : Linked { s with recoveryTimer := false, readUnavailable := false } :=
        ⟨h.shown, h.hidden, h.waiting⟩
      obtain ⟨hcleared, hnotified, houtage⟩ := hlinked.clearOutage
      refine ⟨hcleared, ?_⟩
      rw [hnotified, houtage]
      show (s.outageNotified && (false || s.streamDelayed)) = (false || s.streamDelayed)
      rw [h.notified, State.outage]
      cases s.readUnavailable <;> cases s.streamDelayed <;> rfl
    · exact h
  | streamDelayed delayed =>
    have hlinked : Linked { s with streamDelayed := delayed } := ⟨h.shown, h.hidden, h.waiting⟩
    cases delayed with
    | true =>
      obtain ⟨hshown, hnotified, houtage⟩ := hlinked.showOutage
      refine ⟨hshown, hnotified.trans (Eq.trans ?_ houtage.symm)⟩
      show true = (s.readUnavailable || true)
      rw [Bool.or_true]
    | false =>
      obtain ⟨hcleared, hnotified, houtage⟩ := hlinked.clearOutage
      refine ⟨hcleared, ?_⟩
      show (clearOutageIfHealthy _).outageNotified = (clearOutageIfHealthy _).outage
      rw [hnotified, houtage]
      show (s.outageNotified && (s.readUnavailable || false)) = (s.readUnavailable || false)
      rw [h.notified, State.outage]
      cases s.readUnavailable <;> cases s.streamDelayed <;> rfl

/-- The first notice that takes the place of the outage notice hides it. -/
theorem breaks_step {a : Action α} (hbreaks : ¬KeepsOutage s a) (h : Sound s) :
    ¬Truthful (step s a).1 := by
  cases a with
  | notify r =>
    obtain ⟨happears, hcondition⟩ := Classical.not_imp.mp hbreaks
    obtain ⟨_, _, houtage⟩ := notify_flags s r
    intro htruthful
    have hshown : Truthful (notify s r).1 := htruthful
    rw [Truthful, houtage, (notify_appears happears).1] at hshown
    cases hout : s.outage with
    | true =>
      rw [if_pos hout] at hcondition
      obtain ⟨n, hactive, hnotice, hduration, _⟩ := h.shown (h.notified.trans hout)
      obtain ⟨m, hm, hmnotice⟩ := hshown.1 hout
      have hinstead := @place_instead _ { s with nextToastId := s.nextToastId + 1 } n
        (r.notice (s.nextToastId + 1)) r.replaceCurrent hactive hnotice.2
        (Int.le_of_eq hduration) hcondition
      rw [hinstead] at hm
      rcases mem_shown.mp hm with hnew | hwaiting
      · rw [← Option.some.inj hnew] at hmnotice
        exact happears.other (mem_shown.mpr (Or.inl hactive)) hnotice hmnotice
      · exact h.waiting m hwaiting hmnotice
    | false =>
      rw [if_neg (by rw [hout]; exact Bool.false_ne_true), not_not] at hcondition
      exact hshown.2 hout _ (mem_place _ _) hcondition
  | _ => exact absurd trivial hbreaks

/-- Over every run in which the user does not dismiss the outage notice, the outage is shown in
every state exactly when nothing takes the place of its notice. -/
theorem outage_shown_iff (actions : List (Action α))
    (hother : Meets step OtherDismissal {} actions) :
    (∀ s, Reaches step {} actions s → Truthful s) ↔ Meets step KeepsOutage {} actions := by
  apply meets_exact step OtherDismissal KeepsOutage Sound Truthful
  · exact fun s h => h.truthful
  · exact fun s a hother hkeeps h => sound_step hother hkeeps h
  · exact fun s a _ hbreaks h => breaks_step hbreaks h
  · refine ⟨⟨?_, ?_, ?_⟩, rfl⟩
    · exact fun htrue => by cases htrue
    · exact fun _ n hn => by cases hn
    · exact fun n hn => absurd hn List.not_mem_nil
  · exact hother

/-- A read fails, a warning waits behind the outage notice and is dismissed, and reads recover. -/
def quietOutage : List (Action Unit) :=
  [.readFailure, .notify { message := "Upload is slow", tone := .warning }, .dismiss 2,
    .readSuccess, .recovery]

instance (n : ToastNotice α) : Decidable (IsOutageNotice n) :=
  inferInstanceAs (Decidable (_ ∧ _))

theorem outage_shown_quiet :
    (∀ s, Reaches step {} quietOutage s → Truthful s) ↔ Meets step KeepsOutage {} quietOutage := by
  apply outage_shown_iff
  refine ⟨trivial, trivial, ?_, trivial, trivial, trivial⟩
  show ∀ n ∈ _, _
  decide

/-- A copied link is confirmed during the outage, and the outage is hidden. -/
theorem copied_hides_outage :
    ¬Truthful (final step ({} : State Unit)
      [.readFailure, .notify { message := "Copied chat link", tone := .success }]) ∧
    Meets step OtherDismissal ({} : State Unit)
      [.readFailure, .notify { message := "Copied chat link", tone := .success }] := by
  constructor
  · intro h
    obtain ⟨n, hn, hnotice⟩ := h.1 rfl
    have hnone : ∀ n ∈ (final step ({} : State Unit)
        [.readFailure, .notify { message := "Copied chat link", tone := .success }]).shown,
        ¬IsOutageNotice n := by decide
    exact hnone n hn hnotice
  · exact ⟨trivial, trivial, trivial⟩

end Prompta.Toasts
