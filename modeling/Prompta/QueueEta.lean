import Mathlib.Algebra.Order.Ring.Rat
import Mathlib.Data.Rat.Floor
import Prompta.SlotSchedules

/-!
The projected start times of queued runs. The projection keeps the times at which slots become
free in a heap, and each queued run takes the next one. Its estimates are the start times of the
schedule in which runs are served in the order of the queue.
-/
namespace Prompta.QueueEta

open SlotSchedules

/-- The heap is given by its elements in ascending order. -/
structure SlotProjection where
  limit : ℕ
  duration : ℚ
  available : List ℚ

def SlotProjection.new (limit : ℤ) (remaining : List ℚ) (duration : ℚ) : SlotProjection where
  limit := (max 1 limit).toNat
  duration := duration
  available := remaining.insertionSort (· ≤ ·)

/-- The loop that pops until fewer runs than slots are left, with the last time it has popped. -/
def drain (limit : ℕ) (startsIn : ℚ) : List ℚ → ℚ × List ℚ
  | [] => (startsIn, [])
  | first :: rest =>
    if limit ≤ (first :: rest).length then drain limit first rest else (startsIn, first :: rest)

def SlotProjection.enqueue (p : SlotProjection) : SlotProjection × ℤ :=
  let drained := drain p.limit 0 p.available
  ({ p with available := drained.2.orderedInsert (· ≤ ·) (drained.1 + p.duration) },
    max 0 ⌈drained.1⌉)

def SlotProjection.enqueues (p : SlotProjection) : ℕ → List ℤ
  | 0 => []
  | n + 1 => p.enqueue.2 :: p.enqueue.1.enqueues n

theorem drain_room {limit : ℕ} {l : List ℚ} (startsIn : ℚ) (h : l.length < limit) :
    drain limit startsIn l = (startsIn, l) := by
  cases l with
  | nil => rfl
  | cons first rest => exact if_neg (Nat.not_le.mpr h)

/-- With too few slots the loop stops one run short of the limit. -/
theorem drain_full {limit : ℕ} (hlimit : 0 < limit) (startsIn : ℚ) {l : List ℚ}
    (h : limit ≤ l.length) : ∃ early t late, l = early ++ t :: late ∧ late.length + 1 = limit ∧
      drain limit startsIn l = (t, late) := by
  induction l generalizing startsIn with
  | nil => exact absurd h (Nat.not_le.mpr hlimit)
  | cons first rest ih =>
    have hstep : drain limit startsIn (first :: rest) = drain limit first rest := if_pos h
    by_cases hrest : limit ≤ rest.length
    · obtain ⟨early, t, late, rfl, hlength, hdrain⟩ := ih first hrest
      exact ⟨first :: early, t, late, rfl, hlength, hstep.trans hdrain⟩
    · rw [List.length_cons] at h
      exact ⟨[], first, rest, rfl, by omega, hstep.trans (drain_room first (by omega))⟩

/-- The projection after the runs, the last of which starts at `last`. What it has dropped is
finished then. -/
structure Projects (p : SlotProjection) (runs : List (Run ℚ)) (last : ℚ) : Prop where
  slots : 0 < p.limit
  duration : 0 ≤ p.duration
  zero : 0 ≤ last
  sorted : p.available.Pairwise (· ≤ ·)
  later : ∀ a ∈ p.available, last ≤ a
  starts : ∀ r ∈ runs, r.start ≤ last
  finishes : ∃ gone, (runs.map Run.finish).Perm (gone ++ p.available) ∧ ∀ g ∈ gone, g ≤ last
  room : p.available.length < p.limit → last = 0

/-- The heap of the remaining times projects the slots at the start. -/
theorem new_projects {limit : ℤ} {remaining : List ℚ} {duration : ℚ}
    (hremaining : ∀ r ∈ remaining, 0 ≤ r) (hduration : 0 ≤ duration) :
    Projects (SlotProjection.new limit remaining duration) (remaining.map fun r => ⟨0, r⟩) 0 where
  slots := by
    show 0 < (max 1 limit).toNat
    omega
  duration := hduration
  zero := le_refl 0
  sorted := List.pairwise_insertionSort _ _
  later a ha := hremaining a ((List.mem_insertionSort _).mp ha)
  starts := by
    intro r hr
    obtain ⟨a, -, rfl⟩ := List.mem_map.mp hr
    exact le_refl 0
  finishes := by
    refine ⟨[], ?_, fun g hg => absurd hg List.not_mem_nil⟩
    rw [List.map_map, List.nil_append]
    have hid : (Run.finish ∘ fun r : ℚ => (⟨0, r⟩ : Run ℚ)) = id := rfl
    rw [hid, List.map_id]
    exact (List.perm_insertionSort _ remaining).symm
  room _ := rfl

/-- The projection after one more run, given what the loop has left of the heap. -/
theorem projects_push {p : SlotProjection} {runs : List (Run ℚ)} {last t : ℚ} {early late : List ℚ}
    (h : Projects p runs last) (hlast : last ≤ t) (hlate : ∀ a ∈ late, t ≤ a)
    (hsorted : late.Pairwise (· ≤ ·)) (hperm : (runs.map Run.finish).Perm (early ++ late))
    (hearly : ∀ e ∈ early, e ≤ t) (hroom : late.length + 1 < p.limit → t = 0) :
    Projects { p with available := late.orderedInsert (· ≤ ·) (t + p.duration) }
      (runs ++ [⟨t, t + p.duration⟩]) t where
  slots := h.slots
  duration := h.duration
  zero := le_trans h.zero hlast
  sorted := hsorted.orderedInsert _ _
  later := by
    intro a ha
    rcases (List.mem_orderedInsert _).mp ha with rfl | ha
    · exact le_add_of_nonneg_right h.duration
    · exact hlate a ha
  starts := by
    intro r hr
    rcases List.mem_append.mp hr with hr | hr
    · exact le_trans (h.starts r hr) hlast
    · rw [List.mem_singleton.mp hr]
  finishes := by
    refine ⟨early, ?_, hearly⟩
    have hinsert : (late ++ [t + p.duration]).Perm
        (late.orderedInsert (· ≤ ·) (t + p.duration)) :=
      (List.perm_append_singleton _ _).trans (List.perm_orderedInsert _ _ _).symm
    rw [List.map_append, List.map_singleton]
    refine (hperm.append_right _).trans ?_
    rw [List.append_assoc]
    exact hinsert.append_left early
  room := by
    intro hlength
    apply hroom
    rwa [List.orderedInsert_length] at hlength

/-- One queued run takes the earliest time that the runs before it leave. -/
theorem enqueue_projects {p : SlotProjection} {runs : List (Run ℚ)} {last : ℚ}
    (h : Projects p runs last) : ∃ t, last ≤ t ∧ IsLeast {u | Admits p.limit runs u} t ∧
      p.enqueue.2 = ⌈t⌉ ∧ Projects p.enqueue.1 (runs ++ [⟨t, t + p.duration⟩]) t := by
  obtain ⟨gone, hperm, hgone⟩ := h.finishes
  by_cases hfull : p.limit ≤ p.available.length
  · obtain ⟨early, t, late, hsplit, hcount, hdrain⟩ := drain_full h.slots 0 hfull
    have hsorted := h.sorted
    rw [hsplit] at hsorted hperm
    obtain ⟨-, hright, hcross⟩ := List.pairwise_append.mp hsorted
    obtain ⟨hlate, hrest⟩ := List.pairwise_cons.mp hright
    have hlast : last ≤ t := by
      apply h.later
      rw [hsplit]
      exact List.mem_append_right _ List.mem_cons_self
    have hstart : ∀ r ∈ runs, r.start ≤ t := fun r hr => le_trans (h.starts r hr) hlast
    have hearly : ∀ e ∈ gone ++ early, e ≤ t := by
      intro e he
      rcases List.mem_append.mp he with he | he
      · exact le_trans (hgone e he) hlast
      · exact hcross e he t List.mem_cons_self
    have hzero : 0 ≤ t := le_trans h.zero hlast
    have hperm' : (runs.map Run.finish).Perm ((gone ++ early) ++ t :: late) := by
      rw [List.append_assoc]
      exact hperm
    refine ⟨t, hlast, least_of_finish hperm' hzero hstart hearly hlate hcount, ?_, ?_⟩
    · show max 0 ⌈(drain p.limit 0 p.available).1⌉ = ⌈t⌉
      rw [hdrain]
      exact max_eq_right (Int.ceil_nonneg hzero)
    · have hstep : p.enqueue.1 =
          { p with available := late.orderedInsert (· ≤ ·) (t + p.duration) } := by
        unfold SlotProjection.enqueue
        rw [hdrain]
      rw [hstep]
      have hperm'' : (runs.map Run.finish).Perm ((gone ++ early ++ [t]) ++ late) := by
        simpa using hperm'
      refine projects_push h hlast hlate hrest hperm'' ?_ (by omega)
      intro e he
      rcases List.mem_append.mp he with he | he
      · exact hearly e he
      · rw [List.mem_singleton.mp he]
  · have hroom : p.available.length < p.limit := by omega
    have hlast : last = 0 := h.room hroom
    rw [hlast] at hgone
    have hdrain := drain_room 0 hroom
    have hstart : ∀ r ∈ runs, r.start ≤ 0 := by
      intro r hr
      rw [← hlast]
      exact h.starts r hr
    refine ⟨0, le_of_eq hlast, least_of_room hperm hstart hgone hroom, ?_, ?_⟩
    · show max 0 ⌈(drain p.limit 0 p.available).1⌉ = ⌈(0 : ℚ)⌉
      rw [hdrain]
      simp
    · have hstep : p.enqueue.1 =
          { p with available := p.available.orderedInsert (· ≤ ·) (0 + p.duration) } := by
        unfold SlotProjection.enqueue
        rw [hdrain]
      rw [hstep]
      refine projects_push h (le_of_eq hlast) ?_ h.sorted hperm hgone fun _ => rfl
      intro a ha
      rw [← hlast]
      exact h.later a ha

theorem enqueue_limit (p : SlotProjection) : p.enqueue.1.limit = p.limit := rfl

theorem enqueue_duration (p : SlotProjection) : p.enqueue.1.duration = p.duration := rfl

theorem enqueues_length (p : SlotProjection) (n : ℕ) : (p.enqueues n).length = n := by
  induction n generalizing p with
  | zero => rfl
  | succ n ih => simp [SlotProjection.enqueues, ih]

/-- A queue of any length gets the start times of its schedule, none before those ahead of it. -/
theorem enqueues_schedule (n : ℕ) {p : SlotProjection} {runs : List (Run ℚ)} {last : ℚ}
    (h : Projects p runs last) : ∃ starts, Schedule p.limit p.duration runs starts ∧
      p.enqueues n = starts.map Int.ceil ∧ starts.Pairwise (· ≤ ·) ∧ ∀ t ∈ starts, last ≤ t := by
  induction n generalizing p runs last with
  | zero =>
    exact ⟨[], Schedule.done runs, rfl, List.Pairwise.nil, fun t ht => absurd ht List.not_mem_nil⟩
  | succ n ih =>
    obtain ⟨t, hlast, hfirst, hestimate, hnext⟩ := enqueue_projects h
    obtain ⟨starts, hschedule, hestimates, hsorted, hafter⟩ := ih hnext
    rw [enqueue_limit, enqueue_duration] at hschedule
    refine ⟨t :: starts, Schedule.next runs t starts hfirst hschedule, ?_, ?_, ?_⟩
    · rw [SlotProjection.enqueues, hestimate, hestimates, List.map_cons]
    · exact List.pairwise_cons.mpr ⟨hafter, hsorted⟩
    · intro u hu
      rcases List.mem_cons.mp hu with rfl | hu
      · exact hlast
      · exact le_trans hlast (hafter u hu)

/-- The estimates are the start times of the one schedule that serves the queue in its order, in
whole seconds, and none is smaller than the one before it. -/
theorem estimates_schedule (limit : ℤ) (remaining : List ℚ) (duration : ℚ)
    (hremaining : ∀ r ∈ remaining, 0 ≤ r) (hduration : 0 ≤ duration) (n : ℕ) :
    ∃ starts : List ℚ, starts.length = n ∧
      Schedule (max 1 limit).toNat duration (remaining.map fun r => ⟨0, r⟩) starts ∧
      (∀ starts', Schedule (max 1 limit).toNat duration (remaining.map fun r => ⟨0, r⟩) starts' →
        starts'.length = n → starts' = starts) ∧
      (SlotProjection.new limit remaining duration).enqueues n = starts.map Int.ceil ∧
      ((SlotProjection.new limit remaining duration).enqueues n).Pairwise (· ≤ ·) := by
  obtain ⟨starts, hschedule, hestimates, hsorted, -⟩ :=
    enqueues_schedule n (@new_projects limit remaining duration hremaining hduration)
  have hlength : starts.length = n := by
    have hsame := congrArg List.length hestimates
    rw [enqueues_length, List.length_map] at hsame
    exact hsame.symm
  refine ⟨starts, hlength, hschedule, ?_, hestimates, ?_⟩
  · intro starts' hschedule' hlength'
    exact schedule_unique hschedule' hschedule (by rw [hlength, hlength'])
  · rw [hestimates]
    apply List.pairwise_map.mpr
    exact hsorted.imp fun h => Int.ceil_mono h

/-- Three runs on two slots: the first queued run waits for two of them. -/
theorem estimates_schedule_overfull :
    (SlotProjection.new 2 [5 / 2, 7, 4] 10).enqueues 3 = [4, 7, 14] ∧
      ∃ starts : List ℚ, starts.length = 3 ∧
        Schedule 2 10 ([5 / 2, 7, 4].map fun r : ℚ => ⟨0, r⟩) starts := by
  obtain ⟨starts, hlength, hschedule, -⟩ :=
    estimates_schedule 2 [5 / 2, 7, 4] 10 (by decide +kernel) (by decide +kernel) 3
  exact ⟨by decide +kernel, starts, hlength, hschedule⟩

end Prompta.QueueEta
