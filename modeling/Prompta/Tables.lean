import Mathlib.Data.List.Nodup
import Mathlib.Data.List.Basic

/-!
Keyed tables: finitely many rows, at most one for each key.
An update rewrites the rows that a condition selects and keeps every key, so
its effect on the row of one key is a function of that row alone. An insertion
of a row whose key is taken leaves the table as it is.
-/
namespace Prompta.Tables

universe u v

/-- The key is a function of the row, and no two rows share one. -/
structure Table (α : Type u) (κ : Type v) (key : α → κ) where
  rows : List α
  nodup : (rows.map key).Nodup

namespace Table

variable {α : Type u} {κ : Type v} {key : α → κ} [DecidableEq κ]

def empty : Table α κ key := ⟨[], List.nodup_nil⟩

def lookup (t : Table α κ key) (k : κ) : Option α :=
  t.rows.find? fun r => decide (key r = k)

/-- Rewrite the rows selected by `p`. The rewriting keeps the key. -/
def update (t : Table α κ key) (p : α → Bool) (f : α → α)
    (hf : ∀ r, key (f r) = key r) : Table α κ key where
  rows := t.rows.map fun r => if p r then f r else r
  nodup := by
    have hkeys : (t.rows.map fun r => if p r then f r else r).map key = t.rows.map key := by
      rw [List.map_map]
      apply List.map_congr_left
      intro r _
      by_cases hp : p r <;> simp [hp, hf]
    rw [hkeys]
    exact t.nodup

/-- Rewrite the row of one key, when it satisfies `p`. -/
def updateAt (t : Table α κ key) (k : κ) (p : α → Bool) (f : α → α)
    (hf : ∀ r, key (f r) = key r) : Table α κ key :=
  t.update (fun r => decide (key r = k) && p r) f hf

/-- Remove the rows selected by `p`. -/
def delete (t : Table α κ key) (p : α → Bool) : Table α κ key where
  rows := t.rows.filter fun r => !p r
  nodup := t.nodup.sublist (List.filter_sublist.map key)

/-- Whether an update of the row of one key selects a row. -/
def hits (t : Table α κ key) (k : κ) (p : α → Bool) : Bool :=
  (t.lookup k).any p

/-- Append a row, unless its key is taken. -/
def insertNew (t : Table α κ key) (r : α) : Table α κ key :=
  if h : key r ∈ t.rows.map key then t else
    ⟨t.rows ++ [r], by
      rw [List.map_append, List.nodup_append]
      refine ⟨t.nodup, List.nodup_singleton _, ?_⟩
      intro a ha b hb hab
      simp only [List.map_cons, List.map_nil, List.mem_singleton] at hb
      exact h (hb ▸ hab ▸ ha)⟩

/-- Append a row, or rewrite the row that has its key, when that one satisfies `p`. -/
def upsert (t : Table α κ key) (r : α) (p : α → Bool) (f : α → α)
    (hf : ∀ r, key (f r) = key r) : Table α κ key :=
  match t.lookup (key r) with
  | none => t.insertNew r
  | some _ => t.updateAt (key r) p f hf

theorem lookup_key {t : Table α κ key} {k : κ} {r : α} (h : t.lookup k = some r) :
    key r = k := by
  simpa using List.find?_some h

theorem lookup_mem {t : Table α κ key} {k : κ} {r : α} (h : t.lookup k = some r) :
    r ∈ t.rows := List.mem_of_find?_eq_some h

private theorem find?_of_mem_nodup (rows : List α) (hrows : (rows.map key).Nodup)
    (r : α) (h : r ∈ rows) : rows.find? (fun x => decide (key x = key r)) = some r := by
  induction rows with
  | nil => simp at h
  | cons a rest ih =>
    simp only [List.map_cons, List.nodup_cons] at hrows
    rcases List.mem_cons.mp h with rfl | hrest
    · simp
    · have hne : key a ≠ key r := by
        intro heq
        exact hrows.1 (heq ▸ List.mem_map_of_mem hrest)
      rw [List.find?_cons_of_neg (by simpa using hne)]
      exact ih hrows.2 hrest

/-- The row found under its own key is the row itself. -/
theorem lookup_of_mem {t : Table α κ key} {r : α} (h : r ∈ t.rows) :
    t.lookup (key r) = some r := find?_of_mem_nodup t.rows t.nodup r h

theorem lookup_eq_some_iff {t : Table α κ key} {k : κ} {r : α} :
    t.lookup k = some r ↔ r ∈ t.rows ∧ key r = k := by
  constructor
  · intro h
    exact ⟨lookup_mem h, lookup_key h⟩
  · rintro ⟨hmem, rfl⟩
    exact lookup_of_mem hmem

theorem lookup_eq_none_iff {t : Table α κ key} {k : κ} :
    t.lookup k = none ↔ ∀ r ∈ t.rows, key r ≠ k := by
  simp [lookup, List.find?_eq_none]

@[simp] theorem lookup_empty (k : κ) : (empty : Table α κ key).lookup k = none := rfl

omit [DecidableEq κ] in
theorem mem_update {t : Table α κ key} {p : α → Bool} {f : α → α}
    (hf : ∀ r, key (f r) = key r) {r : α} :
    r ∈ (t.update p f hf).rows ↔ ∃ a ∈ t.rows, (if p a then f a else a) = r := by
  simp [update]

/-- An update acts on each key's row separately. -/
theorem lookup_update (t : Table α κ key) (p : α → Bool) (f : α → α)
    (hf : ∀ r, key (f r) = key r) (k : κ) :
    (t.update p f hf).lookup k = (t.lookup k).map fun r => if p r then f r else r := by
  unfold lookup update
  rw [List.find?_map]
  congr 1
  apply congrFun
  apply congrArg
  funext r
  by_cases hp : p r <;> simp [hp, hf]

theorem lookup_updateAt_self (t : Table α κ key) (k : κ) (p : α → Bool) (f : α → α)
    (hf : ∀ r, key (f r) = key r) :
    (t.updateAt k p f hf).lookup k = (t.lookup k).map fun r => if p r then f r else r := by
  rw [updateAt, lookup_update]
  cases h : t.lookup k with
  | none => rfl
  | some r => simp [lookup_key h]

theorem lookup_updateAt_ne (t : Table α κ key) (k j : κ) (p : α → Bool) (f : α → α)
    (hf : ∀ r, key (f r) = key r) (hj : j ≠ k) :
    (t.updateAt k p f hf).lookup j = t.lookup j := by
  rw [updateAt, lookup_update]
  cases h : t.lookup j with
  | none => rfl
  | some r =>
    have hr : key r ≠ k := by rw [lookup_key h]; exact hj
    simp [hr]

theorem hits_iff {t : Table α κ key} {k : κ} {p : α → Bool} :
    t.hits k p = true ↔ ∃ r, t.lookup k = some r ∧ p r = true := by
  cases h : t.lookup k <;> simp [hits, h]

theorem hits_eq_false_iff {t : Table α κ key} {k : κ} {p : α → Bool} :
    t.hits k p = false ↔ ∀ r, t.lookup k = some r → p r = false := by
  cases h : t.lookup k <;> simp [hits, h]

omit [DecidableEq κ] in
theorem eq_of_rows {t t' : Table α κ key} (h : t.rows = t'.rows) : t = t' := by
  cases t
  cases t'
  simpa using h

omit [DecidableEq κ] in
theorem keys_update (t : Table α κ key) (p : α → Bool) (f : α → α)
    (hf : ∀ r, key (f r) = key r) : (t.update p f hf).rows.map key = t.rows.map key := by
  unfold update
  rw [List.map_map]
  apply List.map_congr_left
  intro r _
  by_cases hp : p r <;> simp [hp, hf]

omit [DecidableEq κ] in
/-- An update that selects no row changes no row. -/
theorem update_eq_self (t : Table α κ key) (p : α → Bool) (f : α → α)
    (hf : ∀ r, key (f r) = key r) (h : ∀ r ∈ t.rows, p r = false) : t.update p f hf = t := by
  apply eq_of_rows
  change (t.rows.map fun r => if p r then f r else r) = t.rows
  conv_rhs => rw [← List.map_id t.rows]
  apply List.map_congr_left
  intro r hr
  simp [h r hr]

/-- A row after an update of one key is an old row, or the one that was rewritten. -/
theorem mem_updateAt {t : Table α κ key} {k : κ} {p : α → Bool} {f : α → α}
    (hf : ∀ r, key (f r) = key r) {r' : α} (h : r' ∈ (t.updateAt k p f hf).rows) :
    r' ∈ t.rows ∨ ∃ r, t.lookup k = some r ∧ p r = true ∧ f r = r' := by
  obtain ⟨r, hr, hrow⟩ := (mem_update hf).mp h
  by_cases hp : (decide (key r = k) && p r) = true
  · rw [if_pos hp] at hrow
    simp only [Bool.and_eq_true, decide_eq_true_eq] at hp
    exact Or.inr ⟨r, lookup_eq_some_iff.mpr ⟨hr, hp.1⟩, hp.2, hrow⟩
  · rw [if_neg hp] at hrow
    exact Or.inl (hrow ▸ hr)

theorem updateAt_eq_self (t : Table α κ key) (k : κ) (p : α → Bool) (f : α → α)
    (hf : ∀ r, key (f r) = key r) (h : t.hits k p = false) : t.updateAt k p f hf = t := by
  apply update_eq_self
  intro r hr
  by_cases hk : key r = k
  · have hp : p r = false := hits_eq_false_iff.mp h r (lookup_eq_some_iff.mpr ⟨hr, hk⟩)
    simp [hp]
  · simp [hk]

theorem insertNew_eq_self {t : Table α κ key} {r : α} (h : t.lookup (key r) ≠ none) :
    t.insertNew r = t := by
  have hmem : key r ∈ t.rows.map key := by
    obtain ⟨a, ha⟩ := Option.ne_none_iff_exists'.mp h
    exact List.mem_map.mpr ⟨a, lookup_mem ha, lookup_key ha⟩
  simp only [insertNew, dif_pos hmem]

theorem rows_insertNew {t : Table α κ key} {r : α} (h : t.lookup (key r) = none) :
    (t.insertNew r).rows = t.rows ++ [r] := by
  have hmem : key r ∉ t.rows.map key := by
    intro hin
    obtain ⟨a, ha, hka⟩ := List.mem_map.mp hin
    exact lookup_eq_none_iff.mp h a ha hka
  simp only [insertNew, dif_neg hmem]

theorem lookup_insertNew_self {t : Table α κ key} {r : α} (h : t.lookup (key r) = none) :
    (t.insertNew r).lookup (key r) = some r := by
  apply lookup_of_mem
  rw [rows_insertNew h]
  simp

theorem lookup_insertNew_ne (t : Table α κ key) (r : α) {k : κ} (hk : k ≠ key r) :
    (t.insertNew r).lookup k = t.lookup k := by
  by_cases h : t.lookup (key r) = none
  · unfold lookup
    rw [rows_insertNew h, List.find?_append]
    have hlast : [r].find? (fun x => decide (key x = k)) = none := by
      simp [Ne.symm hk]
    rw [hlast, Option.or_none]
  · rw [insertNew_eq_self h]

theorem lookup_delete (t : Table α κ key) (p : α → Bool) (k : κ) :
    (t.delete p).lookup k = (t.lookup k).filter fun r => !p r := by
  cases hfound : t.lookup k with
  | none =>
    rw [lookup_eq_none_iff] at hfound
    rw [Option.filter_none, lookup_eq_none_iff]
    intro r hr
    exact hfound r (List.mem_of_mem_filter hr)
  | some r =>
    obtain ⟨hmem, hkey⟩ := lookup_eq_some_iff.mp hfound
    by_cases hp : p r = true
    · rw [Option.filter_some_neg (by simp [hp]), lookup_eq_none_iff]
      intro a ha hka
      obtain ⟨hold, hkept⟩ := List.mem_filter.mp ha
      have hsame : a = r := by
        have ha' := lookup_eq_some_iff.mpr ⟨hold, hka⟩
        rw [hfound] at ha'
        exact (Option.some.inj ha').symm
      rw [hsame, hp] at hkept
      cases hkept
    · rw [Option.filter_some_pos (by simp [hp]), lookup_eq_some_iff]
      exact ⟨List.mem_filter.mpr ⟨hmem, by simp [hp]⟩, hkey⟩

/-- Every row after an insertion is an old row or the inserted one. -/
theorem mem_insertNew {t : Table α κ key} {r a : α} (h : a ∈ (t.insertNew r).rows) :
    a ∈ t.rows ∨ (a = r ∧ t.lookup (key r) = none) := by
  by_cases hnone : t.lookup (key r) = none
  · rw [rows_insertNew hnone, List.mem_append, List.mem_singleton] at h
    exact h.imp_right fun heq => ⟨heq, hnone⟩
  · rw [insertNew_eq_self hnone] at h
    exact Or.inl h

/-- The row of a key after it was put in. -/
theorem lookup_upsert_self (t : Table α κ key) (r : α) (p : α → Bool) (f : α → α)
    (hf : ∀ r, key (f r) = key r) :
    (t.upsert r p f hf).lookup (key r) =
      some ((t.lookup (key r)).elim r fun old => if p old then f old else old) := by
  unfold upsert
  cases h : t.lookup (key r) with
  | none => exact lookup_insertNew_self h
  | some old => rw [lookup_updateAt_self, h]; rfl

theorem lookup_upsert_ne (t : Table α κ key) (r : α) (p : α → Bool) (f : α → α)
    (hf : ∀ r, key (f r) = key r) {k : κ} (hk : k ≠ key r) :
    (t.upsert r p f hf).lookup k = t.lookup k := by
  unfold upsert
  cases h : t.lookup (key r) with
  | none => exact lookup_insertNew_ne t r hk
  | some old => exact lookup_updateAt_ne t (key r) k p f hf hk

end Table
end Prompta.Tables
