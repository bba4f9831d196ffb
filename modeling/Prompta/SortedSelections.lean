import Mathlib.Data.List.Sort

/-!
Sorted selections of a list. Where the order tells the elements apart, a sorted list is
determined by its elements; so what is selected and then sorted is what is selected from the
sorted list, and orders that agree on the selected elements sort them alike.
-/
namespace Prompta.SortedSelections

universe u v

variable {α : Type u}

/-- The order tells the elements of the list apart. -/
def Separates (le : α → α → Prop) (l : List α) : Prop :=
  ∀ a ∈ l, ∀ b ∈ l, le a b → le b a → a = b

theorem separates_subset {le : α → α → Prop} {l l' : List α} (h : Separates le l) (hsub : l' ⊆ l) :
    Separates le l' :=
  fun a ha b hb => h a (hsub ha) b (hsub hb)

/-- Elements with different numbers are told apart by an order that ends with the numbers. -/
theorem separates_of_nodup {β : Type v} {le : α → α → Prop} {number : α → β} {l : List α}
    (hnumber : ∀ a b, le a b → le b a → number a = number b) (hnodup : (l.map number).Nodup) :
    Separates le l := by
  intro a ha b hb hab hba
  exact List.inj_on_of_nodup_map hnodup ha hb (hnumber a b hab hba)

variable {le : α → α → Prop} [DecidableRel le] [Std.Total le] [IsTrans α le]

/-- A sorted arrangement of the elements is the sorted list. -/
theorem sort_unique {l sorted : List α} (hsep : Separates le l) (hperm : sorted.Perm l)
    (hsorted : sorted.Pairwise le) : l.insertionSort le = sorted := by
  refine List.Perm.eq_of_pairwise ?_ (List.pairwise_insertionSort le l) hsorted
    ((List.perm_insertionSort le l).trans hperm.symm)
  intro a b ha hb
  exact hsep a ((List.mem_insertionSort le).mp ha) b (hperm.subset hb)

/-- Filtering a sorted list is sorting the filtered one, also by an order that agrees on what is
left. -/
theorem sort_filter {le' : α → α → Prop} [DecidableRel le'] [Std.Total le'] [IsTrans α le']
    {p : α → Bool} {l : List α} (hsep : Separates le l)
    (hsame : ∀ a b, p a = true → p b = true → (le' a b ↔ le a b)) :
    (l.filter p).insertionSort le' = (l.insertionSort le).filter p := by
  have hselected : ∀ {a}, a ∈ (l.insertionSort le).filter p → p a = true :=
    fun ha => (List.mem_filter.mp ha).2
  apply sort_unique
  · intro a ha b hb hab hba
    obtain ⟨ha, hpa⟩ := List.mem_filter.mp ha
    obtain ⟨hb, hpb⟩ := List.mem_filter.mp hb
    exact hsep a ha b hb ((hsame a b hpa hpb).mp hab) ((hsame b a hpb hpa).mp hba)
  · exact (List.perm_insertionSort le l).filter p
  · apply ((List.pairwise_insertionSort le l).filter p).imp_of_mem
    intro a b ha hb hab
    exact (hsame a b (hselected ha) (hselected hb)).mpr hab

omit [DecidableRel le] [Std.Total le] [IsTrans α le] in
/-- What a map selects, where it changes none of the selected elements. -/
theorem filter_map_fixed {f : α → α} {p q : α → Bool} {l : List α} (hp : ∀ a ∈ l, p (f a) = q a)
    (hf : ∀ a ∈ l, q a = true → f a = a) : (l.map f).filter p = l.filter q := by
  rw [List.filter_map]
  have hsame : l.filter (p ∘ f) = l.filter q := List.filter_congr hp
  rw [hsame]
  have hid : (l.filter q).map f = (l.filter q).map id := by
    apply List.map_congr_left
    intro a ha
    obtain ⟨hmem, hq⟩ := List.mem_filter.mp ha
    exact hf a hmem hq
  rw [hid, List.map_id]

end Prompta.SortedSelections
