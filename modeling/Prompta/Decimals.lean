import Mathlib.Algebra.Order.Floor.Ring
import Mathlib.Data.Rat.Floor
import Mathlib.Data.List.Basic
import Mathlib.Tactic.Linarith

/-!
Decimal texts with six places. A number is rounded to the nearest millionth, a tie to
the even one, so rounding is monotone and tells numbers apart that differ by more than
a millionth. The text of the millionths can be read back.
-/
namespace Prompta.Decimals

/-- The nearest integer, in a tie the even one. -/
def roundHalfEven (x : ℚ) : ℤ :=
  if x - ⌊x⌋ < 1 / 2 then ⌊x⌋
  else if 1 / 2 < x - ⌊x⌋ then ⌊x⌋ + 1
  else if ⌊x⌋ % 2 = 0 then ⌊x⌋
  else ⌊x⌋ + 1

theorem floor_le_roundHalfEven (x : ℚ) : ⌊x⌋ ≤ roundHalfEven x := by
  unfold roundHalfEven
  split_ifs <;> omega

theorem roundHalfEven_le_floor (x : ℚ) : roundHalfEven x ≤ ⌊x⌋ + 1 := by
  unfold roundHalfEven
  split_ifs <;> omega

theorem roundHalfEven_le (x : ℚ) : (roundHalfEven x : ℚ) ≤ x + 1 / 2 := by
  have hfloor := Int.floor_le x
  unfold roundHalfEven
  split_ifs
  · linarith
  · push_cast
    linarith
  · linarith
  · push_cast
    linarith

theorem le_roundHalfEven (x : ℚ) : x - 1 / 2 ≤ (roundHalfEven x : ℚ) := by
  have hfloor := Int.lt_floor_add_one x
  unfold roundHalfEven
  split_ifs
  · linarith
  · push_cast
    linarith
  · linarith
  · push_cast
    linarith

theorem roundHalfEven_mono {x y : ℚ} (h : x ≤ y) : roundHalfEven x ≤ roundHalfEven y := by
  have hfloor := Int.floor_le_floor h
  by_cases hsame : ⌊x⌋ = ⌊y⌋
  · unfold roundHalfEven
    rw [hsame]
    split_ifs <;> first | omega | linarith
  · have hx := roundHalfEven_le_floor x
    have hy := floor_le_roundHalfEven y
    omega

theorem roundHalfEven_lt {x y : ℚ} (h : x + 1 < y) : roundHalfEven x < roundHalfEven y := by
  have hx := roundHalfEven_le x
  have hy := le_roundHalfEven y
  have hlt : (roundHalfEven x : ℚ) < roundHalfEven y := by linarith
  exact_mod_cast hlt

/-- The number of millionths in the text of a number. -/
def millionths (x : ℚ) : ℕ := (roundHalfEven (x * 1000000)).toNat

theorem millionths_mono {x y : ℚ} (h : x ≤ y) : millionths x ≤ millionths y := by
  have hround : roundHalfEven (x * 1000000) ≤ roundHalfEven (y * 1000000) :=
    roundHalfEven_mono (by linarith)
  unfold millionths
  omega

theorem millionths_lt {x y : ℚ} (hx : 0 ≤ x) (h : x + 1 / 1000000 < y) :
    millionths x < millionths y := by
  have hround : roundHalfEven (x * 1000000) < roundHalfEven (y * 1000000) :=
    roundHalfEven_lt (by linarith)
  have hzero : 0 ≤ roundHalfEven (x * 1000000) := by
    have hmono := roundHalfEven_mono (x := 0) (y := x * 1000000) (by linarith)
    have hround0 : roundHalfEven 0 = 0 := by simp [roundHalfEven]
    omega
  unfold millionths
  omega

/-- The digits of the millionths, with the point before the last six of them. -/
def fixedText (n : ℕ) : List Char :=
  let digits := (Nat.toDigits 10 n).leftpad 7 '0'
  digits.take (digits.length - 6) ++ '.' :: digits.drop (digits.length - 6)

example : fixedText (millionths (3 / 2)) = "1.500000".toList := by decide +kernel

theorem ofDigitChars_zeros (k : ℕ) (digits : List Char) :
    Nat.ofDigitChars 10 (List.replicate k '0' ++ digits) 0 = Nat.ofDigitChars 10 digits 0 := by
  induction k with
  | zero => rfl
  | succ k ih => rw [List.replicate_succ, List.cons_append, Nat.ofDigitChars_cons]; exact ih

/-- What a fixed text stands for. -/
def readFixed (t : List Char) : ℕ := Nat.ofDigitChars 10 (t.filter fun c => decide (c ≠ '.')) 0

theorem readFixed_fixedText (n : ℕ) : readFixed (fixedText n) = n := by
  have hdigits : ∀ c ∈ (Nat.toDigits 10 n).leftpad 7 '0', decide (c ≠ '.') = true := by
    intro c hc
    rw [decide_eq_true_eq]
    rintro rfl
    rw [List.leftpad, List.mem_append] at hc
    rcases hc with hc | hc
    · exact absurd (List.eq_of_mem_replicate hc) (by decide)
    · exact absurd (Nat.isDigit_of_mem_toDigits (by omega) (by omega) hc) (by decide)
  unfold readFixed fixedText
  dsimp only
  rw [List.filter_append, List.filter_cons_of_neg (by decide), ← List.filter_append,
    List.take_append_drop, List.filter_eq_self.mpr hdigits, List.leftpad, ofDigitChars_zeros,
    Nat.ofDigitChars_ten_toDigits]

theorem fixedText_injective : Function.Injective fixedText :=
  Function.LeftInverse.injective readFixed_fixedText

theorem fixedText_digits (n : ℕ) {c : Char} (hc : c ∈ fixedText n) :
    c.isDigit = true ∨ c = '.' := by
  have hdigits : ∀ d ∈ (Nat.toDigits 10 n).leftpad 7 '0', d.isDigit = true := by
    intro d hd
    rw [List.leftpad, List.mem_append] at hd
    rcases hd with hd | hd
    · rw [List.eq_of_mem_replicate hd]
      rfl
    · exact Nat.isDigit_of_mem_toDigits (by omega) (by omega) hd
  unfold fixedText at hc
  dsimp only at hc
  rw [List.mem_append, List.mem_cons] at hc
  rcases hc with hc | rfl | hc
  · exact Or.inl (hdigits c (List.mem_of_mem_take hc))
  · exact Or.inr rfl
  · exact Or.inl (hdigits c (List.mem_of_mem_drop hc))

end Prompta.Decimals
