import Mathlib.Data.List.Basic
import Mathlib.Order.Basic

/-!
Runs of a deterministic labelled machine. A step takes a state and an input and
gives the next state and an output; a run is a list of inputs. The events of a
run keep, for every step, the state before it, its input, its output and the
state after it. Three induction rules follow: an invariant of the reached
states, an invariant carried along a clock, and a property that holds from one
event of the run up to a later one.
-/
namespace Prompta.Runs

universe u v w

variable {σ : Type u} {ι : Type v} {ο : Type w}

structure Event (σ : Type u) (ι : Type v) (ο : Type w) where
  pre : σ
  input : ι
  output : ο
  post : σ

def final (step : σ → ι → σ × ο) (s : σ) : List ι → σ
  | [] => s
  | i :: rest => final step (step s i).1 rest

def events (step : σ → ι → σ × ο) (s : σ) : List ι → List (Event σ ι ο)
  | [] => []
  | i :: rest => ⟨s, i, (step s i).2, (step s i).1⟩ :: events step (step s i).1 rest

theorem final_append (step : σ → ι → σ × ο) (s : σ) (left right : List ι) :
    final step s (left ++ right) = final step (final step s left) right := by
  induction left generalizing s with
  | nil => rfl
  | cons i rest ih => exact ih (step s i).1

theorem events_append (step : σ → ι → σ × ο) (s : σ) (left right : List ι) :
    events step s (left ++ right) = events step s left ++ events step
      (final step s left) right := by
  induction left generalizing s with
  | nil => rfl
  | cons i rest ih => simp [events, final, ih]

/-- An invariant of the initial state that the inputs of the run keep. -/
theorem final_invariant (step : σ → ι → σ × ο) (Allowed : ι → Prop) (I : σ → Prop)
    (hstep : ∀ s i, Allowed i → I s → I (step s i).1) (s : σ) (hs : I s) (run : List ι)
    (hrun : ∀ i ∈ run, Allowed i) : I (final step s run) := by
  induction run generalizing s with
  | nil => exact hs
  | cons i rest ih =>
    have hi : Allowed i := hrun i List.mem_cons_self
    exact ih (step s i).1 (hstep s i hi hs) fun j hj => hrun j (List.mem_cons_of_mem i hj)

/-- Every input of the run meets a condition on the state it is applied to. -/
def Meets (step : σ → ι → σ × ο) (C : σ → ι → Prop) (s : σ) : List ι → Prop
  | [] => True
  | i :: rest => C s i ∧ Meets step C (step s i).1 rest

theorem meets_append (step : σ → ι → σ × ο) (C : σ → ι → Prop) (s : σ) (left right : List ι) :
    Meets step C s (left ++ right) ↔
      Meets step C s left ∧ Meets step C (final step s left) right := by
  induction left generalizing s with
  | nil => simp [Meets, final]
  | cons i rest ih => simp [Meets, final, ih, and_assoc]

/-- An invariant kept by every step that meets the condition. -/
theorem meets_invariant (step : σ → ι → σ × ο) (C : σ → ι → Prop) (I : σ → Prop)
    (hstep : ∀ s i, C s i → I s → I (step s i).1) (s : σ) (hs : I s) (run : List ι)
    (hrun : Meets step C s run) : I (final step s run) := by
  induction run generalizing s with
  | nil => exact hs
  | cons i rest ih => exact ih (step s i).1 (hstep s i hrun.1 hs) hrun.2

/-- The invariant holds ahead of every event. -/
theorem event_invariant (step : σ → ι → σ × ο) (C : σ → ι → Prop) (I : σ → Prop)
    (hstep : ∀ s i, C s i → I s → I (step s i).1) (s : σ) (hs : I s) (run : List ι)
    (hrun : Meets step C s run) (e : Event σ ι ο) (he : e ∈ events step s run) : I e.pre := by
  induction run generalizing s with
  | nil => exact absurd he List.not_mem_nil
  | cons i rest ih =>
    rcases List.mem_cons.mp he with rfl | he
    · exact hs
    · exact ih (step s i).1 (hstep s i hrun.1 hs) hrun.2 he

def Reaches (step : σ → ι → σ × ο) (s : σ) (run : List ι) (t : σ) : Prop :=
  ∃ before after, run = before ++ after ∧ t = final step s before

theorem reaches_nil (step : σ → ι → σ × ο) (s : σ) (run : List ι) : Reaches step s run s :=
  ⟨[], run, rfl, rfl⟩

theorem reaches_cons (step : σ → ι → σ × ο) (s : σ) (i : ι) (rest : List ι) (t : σ) :
    Reaches step s (i :: rest) t ↔ t = s ∨ Reaches step (step s i).1 rest t := by
  constructor
  · intro h
    obtain ⟨before, after, hsplit, rfl⟩ := h
    cases before with
    | nil => exact Or.inl rfl
    | cons j before =>
      obtain ⟨rfl, rfl⟩ := List.cons.inj hsplit
      exact Or.inr ⟨before, after, rfl, rfl⟩
  · intro h
    rcases h with rfl | h
    · exact reaches_nil step _ _
    · obtain ⟨before, after, rfl, rfl⟩ := h
      exact ⟨i :: before, after, rfl, rfl⟩

/-- A condition on the steps is exact for a property of the states where it keeps an invariant
that gives the property, and the property fails right after a step that violates it. -/
theorem meets_exact (step : σ → ι → σ × ο) (A C : σ → ι → Prop) (I T : σ → Prop)
    (htrue : ∀ s, I s → T s) (hkeeps : ∀ s i, A s i → C s i → I s → I (step s i).1)
    (hbreaks : ∀ s i, A s i → ¬C s i → I s → ¬T (step s i).1) (s : σ) (hs : I s) (run : List ι)
    (hrun : Meets step A s run) :
    (∀ t, Reaches step s run t → T t) ↔ Meets step C s run := by
  induction run generalizing s with
  | nil =>
    refine ⟨fun _ => trivial, ?_⟩
    intro _ t h
    obtain ⟨before, after, hsplit, rfl⟩ := h
    rw [(List.append_eq_nil_iff.mp hsplit.symm).1]
    exact htrue s hs
  | cons i rest ih =>
    constructor
    · intro h
      have hnext : T (step s i).1 :=
        h _ ((reaches_cons step s i rest _).mpr (Or.inr (reaches_nil step _ rest)))
      have hstep : C s i := by
        by_contra hstep
        exact hbreaks s i hrun.1 hstep hs hnext
      refine ⟨hstep, (ih _ (hkeeps s i hrun.1 hstep hs) hrun.2).mp ?_⟩
      intro t ht
      exact h t ((reaches_cons step s i rest t).mpr (Or.inr ht))
    · intro h t ht
      rcases (reaches_cons step s i rest t).mp ht with rfl | ht
      · exact htrue t hs
      · exact (ih _ (hkeeps s i hrun.1 h.1 hs) hrun.2).mpr h.2 t ht

section Clock

variable {τ : Type*}

/-- The inputs carry times, each related to the one ahead of it, the first to `t`. -/
def Timed (before : τ → τ → Prop) (time : ι → τ) (t : τ) : List ι → Prop
  | [] => True
  | i :: rest => before t (time i) ∧ Timed before time (time i) rest

/-- The time of the last input, or `t` for the empty run. -/
def endTime (time : ι → τ) (t : τ) : List ι → τ
  | [] => t
  | i :: rest => endTime time (time i) rest

theorem timed_append (before : τ → τ → Prop) (time : ι → τ) (t : τ) (left right : List ι) :
    Timed before time t (left ++ right) ↔
      Timed before time t left ∧ Timed before time (endTime time t left) right := by
  induction left generalizing t with
  | nil => simp [Timed, endTime]
  | cons i rest ih => simp [Timed, endTime, ih, and_assoc]

/-- An invariant indexed by the clock: a step at a time related to the last one
carries it to its own time. -/
theorem clocked_invariant (step : σ → ι → σ × ο) (before : τ → τ → Prop) (time : ι → τ)
    (C : σ → ι → Prop) (I : τ → σ → Prop)
    (hstep : ∀ t s i, C s i → before t (time i) → I t s → I (time i) (step s i).1)
    (t : τ) (s : σ) (hs : I t s) (run : List ι) (htime : Timed before time t run)
    (hrun : Meets step C s run) : I (endTime time t run) (final step s run) := by
  induction run generalizing t s with
  | nil => exact hs
  | cons i rest ih =>
    exact ih (time i) (step s i).1 (hstep t s i hrun.1 htime.1 hs) htime.2 hrun.2

variable [Preorder τ]

/-- The times never decrease. -/
def Nondecreasing (time : ι → τ) (t : τ) (run : List ι) : Prop :=
  Timed (fun a b => a ≤ b) time t run

/-- The times increase with every input. -/
def Increasing (time : ι → τ) (t : τ) (run : List ι) : Prop :=
  Timed (fun a b => a < b) time t run

end Clock

/-- An event of the run is the step its input makes from its first state. -/
theorem event_step (step : σ → ι → σ × ο) (s : σ) (run : List ι) (e : Event σ ι ο)
    (he : e ∈ events step s run) : step e.pre e.input = (e.post, e.output) := by
  induction run generalizing s with
  | nil => simp [events] at he
  | cons i rest ih =>
    simp only [events, List.mem_cons] at he
    rcases he with rfl | he
    · rfl
    · exact ih (step s i).1 he

theorem event_input (step : σ → ι → σ × ο) (s : σ) (run : List ι) (e : Event σ ι ο)
    (he : e ∈ events step s run) : e.input ∈ run := by
  induction run generalizing s with
  | nil => simp [events] at he
  | cons i rest ih =>
    simp only [events, List.mem_cons] at he
    rcases he with rfl | he
    · exact List.mem_cons_self
    · exact List.mem_cons_of_mem i (ih (step s i).1 he)

/-- A condition on the inputs, as one on the events. -/
theorem meets_iff_events (step : σ → ι → σ × ο) (C : σ → ι → Prop) (s : σ) (run : List ι) :
    Meets step C s run ↔ ∀ e ∈ events step s run, C e.pre e.input := by
  induction run generalizing s with
  | nil => simp [Meets, events]
  | cons i rest ih => simp [Meets, events, ih]

/-- The state before an event is reached by a prefix of the run. -/
theorem event_pre (step : σ → ι → σ × ο) (s : σ) (run : List ι)
    (before after : List (Event σ ι ο)) (e : Event σ ι ο)
    (h : events step s run = before ++ e :: after) :
    ∃ left right, run = left ++ e.input :: right ∧ e.pre = final step s left ∧
      events step s left = before ∧ events step e.post right = after := by
  induction run generalizing s before with
  | nil => simp [events] at h
  | cons i rest ih =>
    cases before with
    | nil =>
      simp only [events, List.nil_append, List.cons.injEq] at h
      obtain ⟨rfl, rfl⟩ := h
      exact ⟨[], rest, rfl, rfl, rfl, rfl⟩
    | cons b before =>
      simp only [events, List.cons_append, List.cons.injEq] at h
      obtain ⟨rfl, hrest⟩ := h
      obtain ⟨left, right, hrun, hpre, hbefore, hafter⟩ := ih (step s i).1 before hrest
      exact ⟨i :: left, right, by rw [hrun]; rfl, hpre, by rw [events, hbefore], hafter⟩

/-- A property that every event keeps holds up to the next event of the run. -/
theorem carried (step : σ → ι → σ × ο) (P : σ → Prop) (s : σ) (run : List ι)
    (between after : List (Event σ ι ο)) (e : Event σ ι ο)
    (h : events step s run = between ++ e :: after) (hs : P s)
    (hkeep : ∀ b ∈ between, P b.pre → P b.post) : P e.pre := by
  induction run generalizing s between with
  | nil => simp [events] at h
  | cons i rest ih =>
    cases between with
    | nil =>
      simp only [events, List.nil_append, List.cons.injEq] at h
      exact h.1 ▸ hs
    | cons b between =>
      simp only [events, List.cons_append, List.cons.injEq] at h
      obtain ⟨rfl, hrest⟩ := h
      exact ih (step s i).1 between hrest (hkeep _ List.mem_cons_self hs)
        fun c hc => hkeep c (List.mem_cons_of_mem _ hc)

/-- Between two events of a run, a property that holds after the first and that
every event between them keeps still holds before the second. -/
theorem carried_between (step : σ → ι → σ × ο) (P : σ → Prop) (s : σ) (run : List ι)
    (before between after : List (Event σ ι ο)) (e e' : Event σ ι ο)
    (h : events step s run = before ++ e :: (between ++ e' :: after)) (he : P e.post)
    (hkeep : ∀ b ∈ between, P b.pre → P b.post) : P e'.pre := by
  obtain ⟨_, right, _, _, _, hright⟩ := event_pre step s run before _ e h
  exact carried step P e.post right between after e' hright he hkeep

/-- A property that holds after an event and that every later event keeps holds from
then on. -/
theorem carried_after (step : σ → ι → σ × ο) (P : σ → Prop) (s : σ) (run : List ι)
    (before after : List (Event σ ι ο)) (e : Event σ ι ο)
    (h : events step s run = before ++ e :: after) (he : P e.post)
    (hkeep : ∀ b ∈ after, P b.pre → P b.post) : ∀ b ∈ after, P b.pre ∧ P b.post := by
  intro b hb
  obtain ⟨between, later, rfl⟩ := List.append_of_mem hb
  have hpre : P b.pre := by
    refine carried_between step P s run before between later e b h he ?_
    intro c hc
    exact hkeep c (List.mem_append_left _ hc)
  exact ⟨hpre, hkeep b hb hpre⟩

end Prompta.Runs
