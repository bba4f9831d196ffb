import Mathlib.Data.List.Forall2
import Mathlib.Data.List.Sort
import Mathlib.Logic.Relation
import Prompta.Tables

/-!
How a keyed table may evolve. Every row of the old table keeps its place and
goes through finitely many changes, and new rows are appended, changed in turn.
Updates and insertions evolve a table, evolutions compose, and facts about single
changes become facts about the table: what a change keeps, the table keeps.
-/
namespace Prompta.Tables

open Relation

universe u v

variable {α : Type u} {κ : Type v} {key : α → κ}

/-- What every step keeps is kept by a sequence of steps. -/
theorem reflTransGen_keeps {R : α → α → Prop} {P : α → Prop}
    (hstep : ∀ a b, R a b → P a → P b) {a b : α} (h : ReflTransGen R a b) (ha : P a) : P b := by
  induction h with
  | refl => exact ha
  | tail _ hlast ih => exact hstep _ _ hlast ih

/-- A field that no step changes. -/
theorem reflTransGen_field {β : Type*} {R : α → α → Prop} {f : α → β}
    (hstep : ∀ a b, R a b → f b = f a) {a b : α} (h : ReflTransGen R a b) : f b = f a := by
  induction h with
  | refl => rfl
  | tail _ hlast ih => rw [hstep _ _ hlast, ih]

theorem forall₂_exists_left {β : Type*} {R : α → β → Prop} {l : List α} {l' : List β}
    (h : List.Forall₂ R l l') {b : β} (hb : b ∈ l') : ∃ a ∈ l, R a b := by
  induction h with
  | nil => simp at hb
  | cons hab _ ih =>
    rcases List.mem_cons.mp hb with rfl | hmem
    · exact ⟨_, List.mem_cons_self, hab⟩
    · obtain ⟨a, ha, har⟩ := ih hmem
      exact ⟨a, List.mem_cons_of_mem _ ha, har⟩

theorem forall₂_exists_right {β : Type*} {R : α → β → Prop} {l : List α} {l' : List β}
    (h : List.Forall₂ R l l') {a : α} (ha : a ∈ l) : ∃ b ∈ l', R a b :=
  forall₂_exists_left h.flip ha

theorem forall₂_append_left {β : Type*} {R : α → β → Prop} (l₁ l₂ : List α) (l' : List β)
    (h : List.Forall₂ R (l₁ ++ l₂) l') :
    ∃ l₁' l₂', List.Forall₂ R l₁ l₁' ∧ List.Forall₂ R l₂ l₂' ∧ l' = l₁' ++ l₂' := by
  induction l₁ generalizing l' with
  | nil => exact ⟨[], l', List.Forall₂.nil, h, rfl⟩
  | cons a l₁ ih =>
    cases h with
    | cons hab hrest =>
      obtain ⟨l₁', l₂', h₁, h₂, rfl⟩ := ih _ hrest
      exact ⟨_ :: l₁', l₂', List.Forall₂.cons hab h₁, h₂, rfl⟩

theorem forall₂_trans {R S T : α → α → Prop} (hcomp : ∀ a b c, R a b → S b c → T a c)
    {l₁ l₂ l₃ : List α} (h : List.Forall₂ R l₁ l₂) (h' : List.Forall₂ S l₂ l₃) :
    List.Forall₂ T l₁ l₃ := by
  induction h generalizing l₃ with
  | nil =>
    cases h'
    exact List.Forall₂.nil
  | cons hab _ ih =>
    cases h' with
    | cons hbc hrest => exact List.Forall₂.cons (hcomp _ _ _ hab hbc) (ih hrest)

theorem forall₂_filter {R : α → α → Prop} {p : α → Bool} (hp : ∀ a b, R a b → p a = p b)
    {l l' : List α} (h : List.Forall₂ R l l') : List.Forall₂ R (l.filter p) (l'.filter p) := by
  induction h with
  | nil => exact List.Forall₂.nil
  | @cons a b _ _ hab _ ih =>
    by_cases hpa : p a
    · have hpb : p b = true := hp a b hab ▸ hpa
      rw [List.filter_cons_of_pos hpa, List.filter_cons_of_pos hpb]
      exact List.Forall₂.cons hab ih
    · have hpb : ¬ p b = true := hp a b hab ▸ hpa
      rw [List.filter_cons_of_neg hpa, List.filter_cons_of_neg hpb]
      exact ih

/-- A field that no step changes reads the same along both lists. -/
theorem forall₂_map_eq {β : Type*} {R : α → α → Prop} {f : α → β}
    (hstep : ∀ a b, R a b → f b = f a) {l l' : List α} (h : List.Forall₂ (ReflTransGen R) l l') :
    l'.map f = l.map f := by
  induction h with
  | nil => rfl
  | cons hab _ ih => rw [List.map_cons, List.map_cons, reflTransGen_field hstep hab, ih]

/-- Each old row takes steps of `R`. Each further row starts as a row of `New`. -/
structure Evolves (R : α → α → Prop) (New : α → Prop) (t t' : Table α κ key) : Prop where
  rows : ∃ old new, t'.rows = old ++ new ∧ List.Forall₂ (ReflTransGen R) t.rows old ∧
    ∀ r ∈ new, ∃ a, New a ∧ ReflTransGen R a r

namespace Evolves

variable {R R' : α → α → Prop} {New New' : α → Prop} {t t' t'' : Table α κ key}

theorem refl (t : Table α κ key) : Evolves R New t t := by
  refine ⟨t.rows, [], by simp, ?_, by simp⟩
  exact List.forall₂_same.mpr fun _ _ => ReflTransGen.refl

theorem of_eq (h : t' = t) : Evolves R New t t' := by
  rw [h]
  exact refl t

theorem trans (h : Evolves R New t t') (h' : Evolves R New t' t'') : Evolves R New t t'' := by
  obtain ⟨old, new, hrows, hold, hnew⟩ := h.rows
  obtain ⟨old', new', hrows', hold', hnew'⟩ := h'.rows
  rw [hrows] at hold'
  obtain ⟨first, last, hfirst, hlast, rfl⟩ := forall₂_append_left old new old' hold'
  refine ⟨first, last ++ new', by rw [hrows', List.append_assoc], ?_, ?_⟩
  · exact forall₂_trans (fun _ _ _ hab hbc => hab.trans hbc) hold hfirst
  · intro r hr
    rcases List.mem_append.mp hr with hmem | hmem
    · obtain ⟨b, hb, hbr⟩ := forall₂_exists_left hlast hmem
      obtain ⟨a, ha, hab⟩ := hnew b hb
      exact ⟨a, ha, hab.trans hbr⟩
    · exact hnew' r hmem

theorem mono (h : Evolves R New t t') (hR : ∀ a b, R a b → R' a b) (hN : ∀ a, New a → New' a) :
    Evolves R' New' t t' := by
  obtain ⟨old, new, hrows, hold, hnew⟩ := h.rows
  refine ⟨old, new, hrows, hold.imp (ReflTransGen.mono hR), ?_⟩
  intro r hr
  obtain ⟨a, ha, har⟩ := hnew r hr
  exact ⟨a, hN a ha, ReflTransGen.mono hR _ _ har⟩

theorem update (p : α → Bool) (f : α → α) (hR : ∀ r ∈ t.rows, p r = true → R r (f r))
    (hf : ∀ r, key (f r) = key r) : Evolves R New t (t.update p f hf) := by
  refine ⟨t.rows.map fun r => if p r then f r else r, [], by simp [Table.update], ?_, by simp⟩
  rw [List.forall₂_map_right_iff, List.forall₂_same]
  intro r hr
  by_cases hp : p r
  · rw [if_pos hp]
    exact ReflTransGen.single (hR r hr hp)
  · rw [if_neg hp]

variable [DecidableEq κ]

theorem updateAt (k : κ) (p : α → Bool) (f : α → α)
    (hR : ∀ r, t.lookup k = some r → p r = true → R r (f r))
    (hf : ∀ r, key (f r) = key r) :
    Evolves R New t (t.updateAt k p f hf) := by
  refine update _ f ?_ hf
  intro r hr hp
  simp only [Bool.and_eq_true, decide_eq_true_eq] at hp
  exact hR r (Table.lookup_eq_some_iff.mpr ⟨hr, hp.1⟩) hp.2

theorem insertNew (r : α) (hr : t.lookup (key r) = none → New r) :
    Evolves R New t (t.insertNew r) := by
  by_cases hnone : t.lookup (key r) = none
  · refine ⟨t.rows, [r], Table.rows_insertNew hnone, ?_, ?_⟩
    · exact List.forall₂_same.mpr fun _ _ => ReflTransGen.refl
    · intro a ha
      rw [List.mem_singleton.mp ha]
      exact ⟨r, hr hnone, ReflTransGen.refl⟩
  · exact of_eq (Table.insertNew_eq_self hnone)

section Lookup

variable (hkey : ∀ a b, R a b → key b = key a)
include hkey

/-- A row of the old table is found again, changed. -/
theorem lookup_some (h : Evolves R New t t') {k : κ} {r : α} (hr : t.lookup k = some r) :
    ∃ r', t'.lookup k = some r' ∧ ReflTransGen R r r' := by
  obtain ⟨old, new, hrows, hold, _⟩ := h.rows
  obtain ⟨r', hmem, hrr'⟩ := forall₂_exists_right hold (Table.lookup_mem hr)
  refine ⟨r', Table.lookup_eq_some_iff.mpr ⟨?_, ?_⟩, hrr'⟩
  · rw [hrows]
    exact List.mem_append_left _ hmem
  · rw [reflTransGen_field hkey hrr', Table.lookup_key hr]

/-- A row of the new table is an old row, changed, or a new one under a free key. -/
theorem lookup_old (h : Evolves R New t t') {k : κ} {r' : α} (hr' : t'.lookup k = some r') :
    (∃ r, t.lookup k = some r ∧ ReflTransGen R r r') ∨
      (t.lookup k = none ∧ ∃ a, New a ∧ key a = k ∧ ReflTransGen R a r') := by
  obtain ⟨old, new, hrows, hold, hnew⟩ := h.rows
  have hmem := Table.lookup_mem hr'
  rw [hrows] at hmem
  rcases List.mem_append.mp hmem with hin | hin
  · obtain ⟨r, hr, hrr'⟩ := forall₂_exists_left hold hin
    refine Or.inl ⟨r, Table.lookup_eq_some_iff.mpr ⟨hr, ?_⟩, hrr'⟩
    rw [← reflTransGen_field hkey hrr', Table.lookup_key hr']
  · obtain ⟨a, ha, har⟩ := hnew r' hin
    refine Or.inr ⟨?_, a, ha, ?_, har⟩
    · rw [Table.lookup_eq_none_iff]
      intro r hr hkr
      have hnodup := t'.nodup
      rw [hrows, List.map_append, List.nodup_append] at hnodup
      have hold_key : k ∈ old.map key := by
        rw [forall₂_map_eq hkey hold]
        exact List.mem_map.mpr ⟨r, hr, hkr⟩
      have hnew_key : k ∈ new.map key := List.mem_map.mpr ⟨r', hin, Table.lookup_key hr'⟩
      exact hnodup.2.2 k hold_key k hnew_key rfl
    · rw [← reflTransGen_field hkey har, Table.lookup_key hr']

end Lookup

omit [DecidableEq κ] in
/-- An invariant of the rows that every change keeps and every new row has. -/
theorem keeps {P : α → Prop} (hstep : ∀ a b, R a b → P a → P b) (hnew : ∀ a, New a → P a)
    (h : Evolves R New t t') (ht : ∀ r ∈ t.rows, P r) : ∀ r ∈ t'.rows, P r := by
  obtain ⟨old, new, hrows, hold, hnews⟩ := h.rows
  intro r hr
  rw [hrows] at hr
  rcases List.mem_append.mp hr with hin | hin
  · obtain ⟨a, ha, har⟩ := forall₂_exists_left hold hin
    exact reflTransGen_keeps hstep har (ht a ha)
  · obtain ⟨a, ha, har⟩ := hnews r hin
    exact reflTransGen_keeps hstep har (hnew a ha)

omit [DecidableEq κ] in
/-- A property that no change brings about and no new row has is one of old rows. -/
theorem reflects {P : α → Prop} (hkey : ∀ a b, R a b → key b = key a)
    (hstep : ∀ a b, R a b → P b → P a) (hnew : ∀ a, New a → ¬ P a) (h : Evolves R New t t')
    {r' : α} (hr' : r' ∈ t'.rows) (hP : P r') : ∃ r ∈ t.rows, P r ∧ key r = key r' := by
  have hkeep : ∀ a b, R a b → ¬ P a → ¬ P b := fun a b hab hna hb => hna (hstep a b hab hb)
  obtain ⟨old, new, hrows, hold, hnews⟩ := h.rows
  rw [hrows] at hr'
  rcases List.mem_append.mp hr' with hin | hin
  · obtain ⟨r, hr, hrr'⟩ := forall₂_exists_left hold hin
    refine ⟨r, hr, ?_, (reflTransGen_field hkey hrr').symm⟩
    by_contra hnot
    exact reflTransGen_keeps (P := fun a => ¬ P a) hkeep hrr' hnot hP
  · obtain ⟨a, ha, har⟩ := hnews r' hin
    exact absurd hP (reflTransGen_keeps (P := fun a => ¬ P a) hkeep har (hnew a ha))

end Evolves
end Prompta.Tables
