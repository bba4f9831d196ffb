import Mathlib.Algebra.Order.Monoid.Defs
import Mathlib.Data.List.Sort
import Mathlib.Order.Bounds.Basic

/-!
First come, first served on a number of slots. A run occupies a slot from its start until it is
finished. An item starts at the earliest time at which no earlier run is still to start and fewer
runs than there are slots are active; its own run then lasts for a fixed duration.
-/
namespace Prompta.SlotSchedules

universe u

structure Run (α : Type u) where
  start : α
  finish : α

section Schedules

variable {α : Type u} [LinearOrder α]

def Run.activeAt (t : α) (r : Run α) : Bool := decide (r.start ≤ t) && decide (t < r.finish)

def active (runs : List (Run α)) (t : α) : ℕ := runs.countP (Run.activeAt t)

/-- An item may start at the time, after all runs there are. -/
def Admits [Zero α] (limit : ℕ) (runs : List (Run α)) (t : α) : Prop :=
  0 ≤ t ∧ (∀ r ∈ runs, r.start ≤ t) ∧ active runs t < limit

/-- The start times of a queue, given the runs that occupy slots. -/
inductive Schedule [Zero α] [Add α] (limit : ℕ) (duration : α) : List (Run α) → List α → Prop
  | done (runs : List (Run α)) : Schedule limit duration runs []
  | next (runs : List (Run α)) (t : α) (rest : List α)
      (hfirst : IsLeast {u | Admits limit runs u} t)
      (hrest : Schedule limit duration (runs ++ [⟨t, t + duration⟩]) rest) :
      Schedule limit duration runs (t :: rest)

/-- The queue's length and the occupied slots determine the start times. -/
theorem schedule_unique [Zero α] [Add α] {limit : ℕ} {duration : α} {runs : List (Run α)}
    {starts starts' : List α} (h : Schedule limit duration runs starts)
    (h' : Schedule limit duration runs starts') (hlength : starts.length = starts'.length) :
    starts = starts' := by
  induction h generalizing starts' with
  | done runs => exact (List.length_eq_zero_iff.mp hlength.symm).symm
  | next runs t rest hfirst hrest ih =>
    cases h' with
    | done => simp at hlength
    | next _ t' rest' hfirst' hrest' =>
      obtain rfl : t = t' := hfirst.unique hfirst'
      simp only [List.length_cons, Nat.add_right_cancel_iff] at hlength
      rw [ih hrest' hlength]

/-- Once all runs have started, those are active that are not finished. -/
theorem active_eq_unfinished {runs : List (Run α)} {t : α} (h : ∀ r ∈ runs, r.start ≤ t) :
    active runs t = (runs.map Run.finish).countP fun e => decide (t < e) := by
  unfold active
  rw [List.countP_map]
  apply List.countP_congr
  intro r hr
  simp [Run.activeAt, h r hr]

theorem countP_none {l : List α} {t : α} (h : ∀ e ∈ l, e ≤ t) :
    l.countP (fun e => decide (t < e)) = 0 := by
  apply List.countP_eq_zero.mpr
  intro e he
  simpa using h e he

theorem countP_every {l : List α} {t : α} (h : ∀ e ∈ l, t < e) :
    l.countP (fun e => decide (t < e)) = l.length := by
  apply List.countP_eq_length.mpr
  intro e he
  simpa using h e he

variable [Zero α] {limit : ℕ} {runs : List (Run α)} {early late : List α} {t : α}

/-- A free slot is taken at once. -/
theorem least_of_room (hperm : (runs.map Run.finish).Perm (early ++ late))
    (hstart : ∀ r ∈ runs, r.start ≤ 0) (hearly : ∀ e ∈ early, e ≤ 0) (hroom : late.length < limit) :
    IsLeast {u | Admits limit runs u} (0 : α) := by
  refine ⟨⟨le_refl 0, hstart, ?_⟩, fun u hu => hu.1⟩
  rw [active_eq_unfinished hstart, hperm.countP_eq, List.countP_append, countP_none hearly]
  have hlate : late.countP (fun e => decide (0 < e)) ≤ late.length := List.countP_le_length
  omega

/-- Where slots are short, the next item waits for the run that leaves one slot less occupied
than there are. -/
theorem least_of_finish (hperm : (runs.map Run.finish).Perm (early ++ t :: late)) (hzero : 0 ≤ t)
    (hstart : ∀ r ∈ runs, r.start ≤ t) (hearly : ∀ e ∈ early, e ≤ t) (hlate : ∀ e ∈ late, t ≤ e)
    (hcount : late.length + 1 = limit) : IsLeast {u | Admits limit runs u} t := by
  constructor
  · refine ⟨hzero, hstart, ?_⟩
    rw [active_eq_unfinished hstart, hperm.countP_eq, List.countP_append, countP_none hearly,
      List.countP_cons_of_neg (by simp)]
    have hrest : late.countP (fun e => decide (t < e)) ≤ late.length := List.countP_le_length
    omega
  · intro u hu
    by_contra hlt
    rw [not_le] at hlt
    obtain ⟨-, hstarted, hfew⟩ := hu
    have hwaiting : ∀ e ∈ t :: late, u < e := by
      intro e he
      rcases List.mem_cons.mp he with rfl | he
      · exact hlt
      · exact lt_of_lt_of_le hlt (hlate e he)
    rw [active_eq_unfinished hstarted, hperm.countP_eq, List.countP_append, countP_every hwaiting,
      List.length_cons] at hfew
    omega

end Schedules

end Prompta.SlotSchedules
