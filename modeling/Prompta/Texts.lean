import Mathlib.Data.List.DropRight
import Mathlib.Data.List.Infix
import Mathlib.Data.Rat.Defs
import Mathlib.Algebra.Order.Ring.Rat

/-!
Texts as lists of code points, with the operations of the source language that
the stores use: stripping white space, prefixes, lower case, decimal digits and
the written form of a UUID. Times are rational numbers of seconds.
-/
namespace Prompta.Texts

abbrev Text := List Char

instance : LawfulBEq Text := inferInstance

abbrev Time := ℚ

/-- The code points that `str.strip` removes. -/
def isSpace (c : Char) : Bool :=
  let n := c.toNat
  (9 ≤ n && n ≤ 13) || (28 ≤ n && n ≤ 32) || n = 0x85 || n = 0xa0 || n = 0x1680 ||
    (0x2000 ≤ n && n ≤ 0x200a) || n = 0x2028 || n = 0x2029 || n = 0x202f || n = 0x205f ||
    n = 0x3000

def strip (t : Text) : Text := (t.dropWhile isSpace).rdropWhile isSpace

def startsWith (s stem : String) : Bool := stem.toList.isPrefixOf s.toList

def lower (s : String) : String := String.ofList (s.toList.map Char.toLower)

/-- The zero of each run of ten decimal digits. -/
def digitZeros : List ℕ :=
  [0x30, 0x660, 0x6f0, 0x7c0, 0x966, 0x9e6, 0xa66, 0xae6, 0xb66, 0xbe6, 0xc66, 0xce6, 0xd66,
    0xde6, 0xe50, 0xed0, 0xf20, 0x1040, 0x1090, 0x17e0, 0x1810, 0x1946, 0x19d0, 0x1a80, 0x1a90,
    0x1b50, 0x1bb0, 0x1c40, 0x1c50, 0xa620, 0xa8d0, 0xa900, 0xa9d0, 0xa9f0, 0xaa50, 0xabf0,
    0xff10, 0x104a0, 0x10d30, 0x11066, 0x110f0, 0x11136, 0x111d0, 0x112f0, 0x11450, 0x114d0,
    0x11650, 0x116c0, 0x11730, 0x118e0, 0x11950, 0x11c50, 0x11d50, 0x11da0, 0x11f50, 0x16a60,
    0x16ac0, 0x16b50, 0x1d7ce, 0x1d7d8, 0x1d7e2, 0x1d7ec, 0x1d7f6, 0x1e140, 0x1e2f0, 0x1e4f0,
    0x1e950, 0x1fbf0]

/-- What the pattern `\d` matches. -/
def isDecimal (c : Char) : Bool :=
  digitZeros.any fun first => first ≤ c.toNat && c.toNat < first + 10

def isDigit (c : Char) : Bool := '0' ≤ c && c ≤ '9'

def isLowerHex (c : Char) : Bool := isDigit c || ('a' ≤ c && c ≤ 'f')

def isHex (c : Char) : Bool := isLowerHex c || ('A' ≤ c && c ≤ 'F')

/-- Groups of the given lengths, joined by hyphens. -/
def hyphenGroups (p : Char → Bool) : List ℕ → Text → Bool
  | [], _ => false
  | [n], t => t.length = n && t.all p
  | n :: rest, t =>
    (t.take n).length = n && (t.take n).all p &&
      match t.drop n with
      | '-' :: tail => hyphenGroups p rest tail
      | _ => false

def isUuid (s : String) : Bool := hyphenGroups isHex [8, 4, 4, 4, 12] s.toList

/-- The form in which `str(UUID(..))` writes an identifier. -/
def isCanonicalUuid (s : String) : Bool := hyphenGroups isLowerHex [8, 4, 4, 4, 12] s.toList

/-- `value or other` on optional texts: the empty text counts as absent. -/
def orElse (value : Option String) (other : String) : String :=
  match value with
  | some s => if s = "" then other else s
  | none => other

/-- Whether an optional text is present and not empty. -/
def present (value : Option String) : Bool :=
  match value with
  | some s => decide (s ≠ "")
  | none => false

theorem orElse_of_present {value : Option String} {other : String} (h : present value = true) :
    value = some (orElse value other) := by
  cases value with
  | none => simp [present] at h
  | some s => simp_all [present, orElse]

theorem orElse_of_not_present {value : Option String} {other : String}
    (h : present value = false) : orElse value other = other := by
  cases value with
  | none => rfl
  | some s => simp_all [present, orElse]

theorem strip_length_le (t : Text) : (strip t).length ≤ t.length := by
  have hinner := (List.dropWhile_suffix isSpace (l := t)).length_le
  have houter := (List.rdropWhile_prefix isSpace (t.dropWhile isSpace)).length_le
  exact le_trans houter hinner

/-- What is dropped at the two ends is dropped at once. -/
theorem dropEnds_dropEnds (p : Char → Bool) (t : Text) :
    (((t.dropWhile p).rdropWhile p).dropWhile p).rdropWhile p = (t.dropWhile p).rdropWhile p := by
  have hstart : ((t.dropWhile p).rdropWhile p).dropWhile p = (t.dropWhile p).rdropWhile p := by
    obtain ⟨rest, hrest⟩ : (t.dropWhile p).rdropWhile p <+: t.dropWhile p :=
      List.rdropWhile_prefix _ _
    generalize (t.dropWhile p).rdropWhile p = s at hrest ⊢
    rw [List.dropWhile_eq_self_iff]
    intro hlength
    have hfull : 0 < (t.dropWhile p).length := by
      rw [← hrest, List.length_append]
      omega
    have hhead := List.dropWhile_get_zero_not p t hfull
    simp only [List.get_eq_getElem, ← hrest, List.getElem_append_left hlength] at hhead ⊢
    exact hhead
  rw [hstart]
  exact List.rdropWhile_idempotent _ _

theorem strip_strip (t : Text) : strip (strip t) = strip t := dropEnds_dropEnds isSpace t

/-- Nothing is left of a text when it is blank. -/
theorem strip_solid {t : Text} (h : ∀ c ∈ t, isSpace c = false) : strip t = t := by
  have hstart : t.dropWhile isSpace = t := by
    cases t with
    | nil => rfl
    | cons c rest =>
      rw [List.dropWhile_cons_of_neg (by rw [h c List.mem_cons_self]; exact Bool.false_ne_true)]
  rw [strip, hstart, List.rdropWhile_eq_self_iff]
  intro hne
  rw [h _ (List.getLast_mem hne)]
  exact Bool.false_ne_true

theorem strip_eq_nil_iff (t : Text) : strip t = [] ↔ ∀ c ∈ t, isSpace c = true := by
  rw [strip, List.rdropWhile_eq_nil_iff, ← List.dropWhile_eq_nil_iff, List.dropWhile_idempotent,
    List.dropWhile_eq_nil_iff]

/-- A text with a nonblank prefix is not blank. -/
theorem strip_ne_nil_of_prefix {t t' : Text} (h : strip t ≠ []) (hstart : t <+: t') :
    strip t' ≠ [] := by
  intro hblank
  apply h
  rw [strip_eq_nil_iff] at hblank ⊢
  intro c hc
  exact hblank c (hstart.subset hc)

end Prompta.Texts
