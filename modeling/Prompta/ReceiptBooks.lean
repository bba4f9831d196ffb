import Mathlib.Data.List.Nodup
import Prompta.Runs

/-!
Books of receipts. A receipt holds an identifier under a key. An operation leaves a book as
it is, adds a receipt for a key the book lacks, or takes out the one receipt that is
acknowledged. Whatever the operations are, the keys of a book stay distinct, and a receipt
stays in the book until its identifier is acknowledged.
-/
namespace Prompta.ReceiptBooks

open Runs

variable {ε κ ι : Type*} [DecidableEq κ] [DecidableEq ι] (key : ε → κ) (ident : ε → ι)

/-- A book without the receipts that hold an identifier under a key. -/
def takeOut (k : κ) (i : ι) (book : List ε) : List ε :=
  book.filter fun e => decide (key e ≠ k ∨ ident e ≠ i)

/-- What an operation that asks for a key, or acknowledges an identifier, does to a book. -/
inductive BookStep (asked : Option κ) (acked : Option (κ × ι)) : List ε → List ε → Prop
  | same (book : List ε) : BookStep asked acked book book
  | added (book : List ε) (e : ε) (hasked : asked = some (key e))
      (hnew : ∀ x ∈ book, key x ≠ key e) : BookStep asked acked book (book ++ [e])
  | removed (book : List ε) (k : κ) (i : ι) (hacked : acked = some (k, i)) :
      BookStep asked acked book (takeOut key ident k i book)

variable {key ident}

theorem mem_takeOut {k : κ} {i : ι} {book : List ε} {e : ε} :
    e ∈ takeOut key ident k i book ↔ e ∈ book ∧ (key e ≠ k ∨ ident e ≠ i) := by
  rw [takeOut, List.mem_filter, decide_eq_true_eq]

/-- Taking an identifier out is seen where a receipt holds it. -/
theorem prefix_takeOut {k : κ} {i : ι} {book : List ε} :
    book <+: takeOut key ident k i book ↔ ∀ e ∈ book, key e ≠ k ∨ ident e ≠ i := by
  constructor
  · intro h e he
    have hsame := h.eq_of_length (Nat.le_antisymm h.length_le (List.length_filter_le _ _))
    rw [hsame] at he
    exact (mem_takeOut.mp he).2
  · intro h
    have hsame : takeOut key ident k i book = book :=
      List.filter_eq_self.mpr fun e he => decide_eq_true (h e he)
    exact ⟨[], by rw [List.append_nil, hsame]⟩

omit [DecidableEq κ] [DecidableEq ι] in
/-- The receipt under a key, where the keys are distinct. -/
theorem unique_receipt {book : List ε} (h : (book.map key).Nodup) {e e' : ε} (he : e ∈ book)
    (he' : e' ∈ book) (hkey : key e = key e') : e = e' :=
  List.inj_on_of_nodup_map h he he' hkey

namespace BookStep

variable {asked : Option κ} {acked : Option (κ × ι)} {book book' : List ε}

theorem unique (h : BookStep key ident asked acked book book') (hbook : (book.map key).Nodup) :
    (book'.map key).Nodup := by
  cases h with
  | same => exact hbook
  | added e _ hnew =>
    rw [List.map_append, List.nodup_append]
    refine ⟨hbook, List.nodup_singleton _, ?_⟩
    intro k hk k' hk' heq
    obtain ⟨x, hx, rfl⟩ := List.mem_map.mp hk
    rw [List.map_singleton, List.mem_singleton] at hk'
    exact hnew x hx (heq.trans hk')
  | removed k i _ => exact hbook.sublist (List.filter_sublist.map key)

/-- Only an acknowledgement of its own identifier takes a receipt out. -/
theorem keeps (h : BookStep key ident asked acked book book') {e : ε} (he : e ∈ book)
    (hacked : ∀ k, acked = some (k, ident e) → k ≠ key e) : e ∈ book' := by
  cases h with
  | same => exact he
  | added => exact List.mem_append_left _ he
  | removed k i hremoved =>
    refine mem_takeOut.mpr ⟨he, ?_⟩
    by_cases hident : ident e = i
    · subst hident
      exact Or.inl fun hkey => hacked k hremoved hkey.symm
    · exact Or.inr hident

/-- Without an acknowledgement a book only grows at its end. -/
theorem grows (h : BookStep key ident asked none book book') : book <+: book' := by
  cases h with
  | same => exact List.prefix_rfl
  | added e => exact List.prefix_append book [e]
  | removed k i hremoved => cases hremoved

/-- An operation that asks for nothing leaves every receipt it does not acknowledge. -/
theorem others_iff (h : BookStep key ident none acked book book') {e : ε}
    (he : ∀ k i, acked = some (k, i) → key e ≠ k ∨ ident e ≠ i) : e ∈ book' ↔ e ∈ book := by
  cases h with
  | same => exact Iff.rfl
  | added e hasked => cases hasked
  | removed k i hremoved =>
    rw [mem_takeOut]
    exact and_iff_left (he k i hremoved)

end BookStep

section Run

variable {σ χ ο : Type*} {step : σ → χ → σ × ο} {book : σ → List ε} {asked : χ → Option κ}
  {acked : χ → Option (κ × ι)}
  (hstep : ∀ s c, BookStep key ident (asked c) (acked c) (book s) (book (step s c).1))
include hstep

theorem run_unique (s : σ) (run : List χ) (hs : ((book s).map key).Nodup) :
    ((book (final step s run)).map key).Nodup :=
  final_invariant step (fun _ => True) (fun s => ((book s).map key).Nodup)
    (fun s c _ h => (hstep s c).unique h) s hs run fun _ _ => trivial

theorem run_keeps (s : σ) (run : List χ) {e : ε} (he : e ∈ book s)
    (hrun : ∀ c ∈ run, ∀ k, acked c ≠ some (k, ident e)) : e ∈ book (final step s run) :=
  final_invariant step (fun c => ∀ k, acked c ≠ some (k, ident e)) (fun s => e ∈ book s)
    (fun s c hc h => (hstep s c).keeps h fun k hk => absurd hk (hc k)) s he run hrun

end Run

end Prompta.ReceiptBooks
