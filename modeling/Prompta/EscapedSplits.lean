import Mathlib.Algebra.BigOperators.Group.List.Basic
import Mathlib.Algebra.GroupWithZero.Nat
import Mathlib.Data.List.Basic

/-!
Lists that are split at a separator, with an escape in front of a separator that does not
count. A separator is bare when an even number of escapes stands directly before it. Lists
without bare separators that end outside of an escape are found again when they are joined.
-/
namespace Prompta.EscapedSplits

variable {α : Type*} [DecidableEq α] (esc sep : α)

def pending (odd : Bool) (c : α) : Bool := decide (c = esc) && !odd

def escapedAfter : Bool → List α → Bool
  | odd, [] => odd
  | odd, c :: rest => escapedAfter (pending esc odd c) rest

def bare : Bool → List α → ℕ
  | _, [] => 0
  | odd, c :: rest => (if c = sep ∧ odd = false then 1 else 0) + bare (pending esc odd c) rest

def pieces : Bool → List α → List (List α)
  | _, [] => [[]]
  | odd, c :: rest =>
    if c = sep ∧ odd = false then [] :: pieces (pending esc odd c) rest
    else (pieces (pending esc odd c) rest).modifyHead (c :: ·)

/-- Neither the escape nor the separator. -/
def Neutral (c : α) : Prop := c ≠ esc ∧ c ≠ sep

variable {esc sep}

theorem pending_neutral {c : α} (h : c ≠ esc) (odd : Bool) : pending esc odd c = false := by
  unfold pending
  rw [decide_eq_false h, Bool.false_and]

theorem escapedAfter_append (odd : Bool) (s t : List α) :
    escapedAfter esc odd (s ++ t) = escapedAfter esc (escapedAfter esc odd s) t := by
  induction s generalizing odd with
  | nil => rfl
  | cons c rest ih => exact ih _

theorem bare_append (odd : Bool) (s t : List α) :
    bare esc sep odd (s ++ t) = bare esc sep odd s + bare esc sep (escapedAfter esc odd s) t := by
  induction s generalizing odd with
  | nil =>
    show bare esc sep odd t = 0 + _
    rw [Nat.zero_add]
    rfl
  | cons c rest ih =>
    show _ + bare esc sep _ (rest ++ t) = _ + bare esc sep _ rest + _
    rw [ih, Nat.add_assoc]
    rfl

theorem bare_neutral {odd : Bool} {t : List α} (h : ∀ c ∈ t, Neutral esc sep c) :
    bare esc sep odd t = 0 := by
  induction t generalizing odd with
  | nil => rfl
  | cons c rest ih =>
    have hc := h c List.mem_cons_self
    show (if c = sep ∧ odd = false then 1 else 0) + bare esc sep _ rest = 0
    rw [if_neg (fun hsep => hc.2 hsep.1), ih (fun d hd => h d (List.mem_cons_of_mem c hd))]

theorem escapedAfter_neutral {t : List α} (h : ∀ c ∈ t, c ≠ esc) :
    escapedAfter esc false t = false := by
  induction t with
  | nil => rfl
  | cons c rest ih =>
    show escapedAfter esc (pending esc false c) rest = false
    rw [pending_neutral (h c List.mem_cons_self)]
    exact ih fun d hd => h d (List.mem_cons_of_mem c hd)

/-- In front of a neutral element it does not matter whether something is escaped. -/
theorem bare_cons_neutral {c : α} (h : Neutral esc sep c) (odd : Bool) (t : List α) :
    bare esc sep odd (c :: t) = bare esc sep false t := by
  show (if c = sep ∧ odd = false then 1 else 0) + bare esc sep (pending esc odd c) t = _
  rw [if_neg (fun hsep => h.2 hsep.1), pending_neutral h.1, Nat.zero_add]

theorem pieces_length (odd : Bool) (t : List α) :
    (pieces esc sep odd t).length = bare esc sep odd t + 1 := by
  induction t generalizing odd with
  | nil => rfl
  | cons c rest ih =>
    show (if c = sep ∧ odd = false then [] :: pieces esc sep (pending esc odd c) rest
        else (pieces esc sep (pending esc odd c) rest).modifyHead (c :: ·)).length =
      (if c = sep ∧ odd = false then 1 else 0) + bare esc sep (pending esc odd c) rest + 1
    split
    · rw [List.length_cons, ih]
      omega
    · rw [List.length_modifyHead, ih]
      omega

theorem pieces_plain {odd : Bool} {t : List α} (h : bare esc sep odd t = 0) :
    pieces esc sep odd t = [t] := by
  induction t generalizing odd with
  | nil => rfl
  | cons c rest ih =>
    have hsplit : (if c = sep ∧ odd = false then 1 else 0) +
        bare esc sep (pending esc odd c) rest = 0 := h
    have hrest : bare esc sep (pending esc odd c) rest = 0 := by omega
    have hsep : ¬(c = sep ∧ odd = false) := by
      intro hsep
      rw [if_pos hsep] at hsplit
      omega
    show (if c = sep ∧ odd = false then _ else (pieces esc sep _ rest).modifyHead (c :: ·)) = _
    rw [if_neg hsep, ih hrest]
    rfl

/-- A list without bare separators is the first piece of what it begins. -/
theorem pieces_append {odd : Bool} {s t : List α} (hne : sep ≠ esc) (h : bare esc sep odd s = 0)
    (hend : escapedAfter esc odd s = false) :
    pieces esc sep odd (s ++ sep :: t) = s :: pieces esc sep false t := by
  induction s generalizing odd with
  | nil =>
    have hodd : odd = false := hend
    show (if sep = sep ∧ odd = false then [] :: pieces esc sep (pending esc odd sep) t else _) = _
    rw [if_pos ⟨rfl, hodd⟩, pending_neutral hne]
  | cons c rest ih =>
    have hsplit : (if c = sep ∧ odd = false then 1 else 0) +
        bare esc sep (pending esc odd c) rest = 0 := h
    have hrest : bare esc sep (pending esc odd c) rest = 0 := by omega
    have hsep : ¬(c = sep ∧ odd = false) := by
      intro hsep
      rw [if_pos hsep] at hsplit
      omega
    show (if c = sep ∧ odd = false then _ else
      (pieces esc sep _ (rest ++ sep :: t)).modifyHead (c :: ·)) = _
    rw [if_neg hsep, ih hrest hend]
    rfl

/-- Lists that are joined at separators are found again when none has a bare one. -/
theorem pieces_intercalate {parts : List (List α)} (hne : sep ≠ esc) (hparts : parts ≠ [])
    (hend : ∀ p ∈ parts, escapedAfter esc false p = false)
    (h : ∀ p ∈ parts, bare esc sep false p = 0) :
    pieces esc sep false (List.intercalate [sep] parts) = parts := by
  induction parts with
  | nil => exact absurd rfl hparts
  | cons p rest ih =>
    cases rest with
    | nil =>
      rw [List.intercalate_singleton]
      exact pieces_plain (h p List.mem_cons_self)
    | cons q rest =>
      rw [List.intercalate_cons_cons, List.append_assoc, List.singleton_append,
        pieces_append hne (h p List.mem_cons_self) (hend p List.mem_cons_self),
        ih (List.cons_ne_nil q rest) (fun r hr => hend r (List.mem_cons_of_mem p hr))
          (fun r hr => h r (List.mem_cons_of_mem p hr))]

/-- Joined lists have the bare separators of the parts and those between the parts. -/
theorem bare_intercalate {parts : List (List α)} (hne : sep ≠ esc)
    (hend : ∀ p ∈ parts, escapedAfter esc false p = false) :
    bare esc sep false (List.intercalate [sep] parts) =
      (parts.map (bare esc sep false)).sum + (parts.length - 1) := by
  induction parts with
  | nil => rfl
  | cons p rest ih =>
    cases rest with
    | nil =>
      rw [List.intercalate_singleton, List.map_singleton, List.sum_singleton]
      rfl
    | cons q rest =>
      have htail := ih fun r hr => hend r (List.mem_cons_of_mem p hr)
      have hstep : bare esc sep false (sep :: List.intercalate [sep] (q :: rest)) =
          1 + bare esc sep false (List.intercalate [sep] (q :: rest)) := by
        show (if sep = sep ∧ false = false then 1 else 0) + bare esc sep
            (pending esc false sep) _ = _
        rw [if_pos ⟨rfl, rfl⟩, pending_neutral hne]
      rw [List.intercalate_cons_cons, List.append_assoc, List.singleton_append, bare_append,
        hend p List.mem_cons_self, hstep, htail]
      simp only [List.map_cons, List.sum_cons, List.length_cons]
      omega

end Prompta.EscapedSplits
