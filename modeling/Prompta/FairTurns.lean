import Mathlib.Algebra.BigOperators.Fin
import Mathlib.Algebra.Order.BigOperators.Group.Finset
import Prompta.Runs

/-!
Turns that go to a waiting member served least often. The members may come and go and every
count may grow, but a turn is given to one of the least counts, which it raises or whose member
it removes. The turns that a member waits for are then bounded by what the others' counts lack
of its own, plus a share for every arrival.
-/
namespace Prompta.FairTurns

open Runs

universe u v w z

structure Waiting (κ : Type u) where
  members : Finset κ
  count : κ → ℕ

variable {κ : Type u} [DecidableEq κ]

namespace Waiting

/-- What is served next is a least count among the members. -/
def IsNext (s : Waiting κ) (o : κ) : Prop :=
  o ∈ s.members ∧ ∀ m ∈ s.members, s.count o ≤ s.count m

/-- A turn goes to a least count, and it raises that count or removes the member. With or
without a turn, no member's count falls. -/
structure Turn (s s' : Waiting κ) (served : Option κ) : Prop where
  grows : ∀ m ∈ s.members, s.count m ≤ s'.count m
  next : ∀ o, served = some o → s.IsNext o
  advances : ∀ o, served = some o → o ∈ s'.members → s.count o < s'.count o

/-- The member waits through the step: it stays, and nobody serves it. -/
def Waits (s s' : Waiting κ) (x : κ) : Prop :=
  x ∈ s.members ∧ x ∈ s'.members ∧ s'.count x = s.count x

/-- The turns that a member with count `c` may still have to leave to `m`. -/
def lead (s : Waiting κ) (c : ℕ) (m : κ) : ℕ := c + 1 - s.count m

/-- The turns that may still go ahead of `x`. -/
def ahead (s : Waiting κ) (x : κ) : ℕ :=
  ∑ m ∈ s.members.erase x, s.lead (s.count x) m

def arrivals (s s' : Waiting κ) : ℕ := (s'.members \ s.members).card

omit [DecidableEq κ] in
theorem lead_le (s : Waiting κ) (c : ℕ) (m : κ) : s.lead c m ≤ c + 1 := Nat.sub_le _ _

/-- The leads of the members that stay and of those that arrive. -/
theorem ahead_le (s s' : Waiting κ) (x : κ) (hsame : s'.count x = s.count x) :
    s'.ahead x ≤ ∑ m ∈ (s'.members ∩ s.members).erase x, s'.lead (s.count x) m +
      s.arrivals s' * (s.count x + 1) := by
  unfold ahead arrivals
  rw [hsame]
  have hsub : s'.members.erase x ⊆
      (s'.members ∩ s.members).erase x ∪ (s'.members \ s.members) := by
    intro m hm
    obtain ⟨hne, hmem⟩ := Finset.mem_erase.mp hm
    by_cases hold : m ∈ s.members
    · exact Finset.mem_union_left _
        (Finset.mem_erase.mpr ⟨hne, Finset.mem_inter.mpr ⟨hmem, hold⟩⟩)
    · exact Finset.mem_union_right _ (Finset.mem_sdiff.mpr ⟨hmem, hold⟩)
  have hnew : ∑ m ∈ s'.members \ s.members, s'.lead (s.count x) m ≤
      (s'.members \ s.members).card * (s.count x + 1) := by
    rw [← smul_eq_mul]
    exact Finset.sum_le_card_nsmul _ _ _ fun m _ => lead_le s' _ m
  calc ∑ m ∈ s'.members.erase x, s'.lead (s.count x) m
      ≤ ∑ m ∈ (s'.members ∩ s.members).erase x ∪ (s'.members \ s.members),
          s'.lead (s.count x) m := Finset.sum_le_sum_of_subset hsub
    _ ≤ ∑ m ∈ (s'.members ∩ s.members).erase x, s'.lead (s.count x) m +
          ∑ m ∈ s'.members \ s.members, s'.lead (s.count x) m := by
        rw [← Finset.sum_union_inter]
        exact Nat.le_add_right _ _
    _ ≤ _ := Nat.add_le_add_left hnew _

/-- The leads of the members that stay only shrink. -/
theorem staying_le {s s' : Waiting κ} {served : Option κ} (h : Turn s s' served) (x : κ) :
    ∑ m ∈ (s'.members ∩ s.members).erase x, s'.lead (s.count x) m ≤
      ∑ m ∈ (s'.members ∩ s.members).erase x, s.lead (s.count x) m := by
  apply Finset.sum_le_sum
  intro m hm
  have hold : m ∈ s.members := (Finset.mem_inter.mp (Finset.mem_of_mem_erase hm)).2
  exact Nat.sub_le_sub_left (h.grows m hold) _

theorem staying_subset (s s' : Waiting κ) (x : κ) :
    (s'.members ∩ s.members).erase x ⊆ s.members.erase x :=
  Finset.erase_subset_erase x Finset.inter_subset_right

/-- The member that is served has a smaller lead afterwards, or none. -/
theorem served_lt {s s' : Waiting κ} {o x : κ} (h : Turn s s' (some o)) (hother : o ≠ x)
    (hbehind : s.count o ≤ s.count x) :
    ∑ m ∈ (s'.members ∩ s.members).erase x, s'.lead (s.count x) m < s.ahead x := by
  have hin : o ∈ s.members.erase x := Finset.mem_erase.mpr ⟨hother, (h.next o rfl).1⟩
  by_cases hstays : o ∈ s'.members
  · have hmore := h.advances o rfl hstays
    have hstrict : ∑ m ∈ (s'.members ∩ s.members).erase x, s'.lead (s.count x) m <
        ∑ m ∈ (s'.members ∩ s.members).erase x, s.lead (s.count x) m := by
      refine Finset.sum_lt_sum ?_ ⟨o, ?_, ?_⟩
      · intro m hm
        have hold : m ∈ s.members := (Finset.mem_inter.mp (Finset.mem_of_mem_erase hm)).2
        exact Nat.sub_le_sub_left (h.grows m hold) _
      · exact Finset.mem_erase.mpr ⟨hother, Finset.mem_inter.mpr ⟨hstays, (h.next o rfl).1⟩⟩
      · unfold lead
        omega
    exact hstrict.trans_le (Finset.sum_le_sum_of_subset (staying_subset s s' x))
  · have hleft : (s'.members ∩ s.members).erase x ⊆ (s.members.erase x).erase o := by
      intro m hm
      obtain ⟨hne, hboth⟩ := Finset.mem_erase.mp hm
      obtain ⟨hnew, hold⟩ := Finset.mem_inter.mp hboth
      refine Finset.mem_erase.mpr ⟨?_, Finset.mem_erase.mpr ⟨hne, hold⟩⟩
      rintro rfl
      exact hstays hnew
    have hpart := Finset.sum_le_sum_of_subset (f := s.lead (s.count x)) hleft
    have hwhole := Finset.sum_erase_add (s.members.erase x) (s.lead (s.count x)) hin
    have hlead : 1 ≤ s.lead (s.count x) o := by
      unfold lead
      omega
    have hless := staying_le h x
    unfold ahead
    omega

/-- A turn that another member takes brings `x` closer, but for what arrives. -/
theorem turn_ahead {s s' : Waiting κ} {served : Option κ} {x : κ} (h : Turn s s' served)
    (hx : Waits s s' x) :
    s'.ahead x + (if served.isSome then 1 else 0) ≤
      s.ahead x + s.arrivals s' * (s.count x + 1) := by
  obtain ⟨hmem, hstays, hsame⟩ := hx
  have hsplit := ahead_le s s' x hsame
  cases served with
  | none =>
    have hless := staying_le h x
    have hold : ∑ m ∈ (s'.members ∩ s.members).erase x, s.lead (s.count x) m ≤ s.ahead x :=
      Finset.sum_le_sum_of_subset (staying_subset s s' x)
    rw [if_neg (by simp)]
    omega
  | some o =>
    have hother : o ≠ x := by
      rintro rfl
      have hmore := h.advances o rfl hstays
      omega
    have hless := served_lt h hother ((h.next o rfl).2 x hmem)
    rw [if_pos (by simp)]
    omega

/-- No more turns ahead of `x` than its count and the number of members allow. -/
theorem ahead_le_card (s : Waiting κ) (x : κ) :
    s.ahead x ≤ (s.members.erase x).card * (s.count x + 1) := by
  unfold ahead
  rw [← smul_eq_mul]
  exact Finset.sum_le_card_nsmul _ _ _ fun m _ => lead_le s _ m

end Waiting

section Run

variable {σ : Type v} {ι : Type w} {ο : Type z} (step : σ → ι → σ × ο) (view : σ → Waiting κ)
  (served : Event σ ι ο → Option κ)

def turns (s : σ) (run : List ι) : ℕ :=
  (events step s run).countP fun e => (served e).isSome

def arrivalsOf (s : σ) (run : List ι) : ℕ :=
  ((events step s run).map fun e => (view e.pre).arrivals (view e.post)).sum

/-- The turns of a run through which `x` waits. -/
theorem turns_bounded (s : σ) (run : List ι) (x : κ)
    (hturn : ∀ e ∈ events step s run, Waiting.Turn (view e.pre) (view e.post) (served e))
    (hwaits : ∀ e ∈ events step s run, Waiting.Waits (view e.pre) (view e.post) x) :
    turns step served s run + (view (final step s run)).ahead x ≤
      (view s).ahead x + arrivalsOf step view s run * ((view s).count x + 1) := by
  induction run generalizing s with
  | nil => simp [turns, arrivalsOf, events, final]
  | cons i rest ih =>
    have hfirst := Waiting.turn_ahead (hturn _ List.mem_cons_self) (hwaits _ List.mem_cons_self)
    have hsame := (hwaits _ List.mem_cons_self).2.2
    have hrest := ih (step s i).1 (fun e he => hturn e (List.mem_cons_of_mem _ he))
      fun e he => hwaits e (List.mem_cons_of_mem _ he)
    dsimp only at hfirst hsame
    rw [hsame] at hrest
    unfold turns arrivalsOf at hrest ⊢
    rw [events, List.countP_cons, List.map_cons, List.sum_cons, final, Nat.add_mul]
    dsimp only at hrest ⊢
    omega

end Run

end Prompta.FairTurns
