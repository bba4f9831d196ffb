import Prompta.Binary64

/-!
The arithmetic of a host. Its results are rounded, in their order; what is rounded once is
representable, and so are the natural numbers below `2 ^ 53`. Numbers are computed exactly
where no arithmetic is named.
-/
namespace Prompta.Roundings

open Binary64

class Rounding where
  round : ℚ → ℚ
  round_mono : ∀ {p q : ℚ}, 0 ≤ p → p ≤ q → round p ≤ round q
  round_round : ∀ {q : ℚ}, 0 ≤ q → round (round q) = round q
  round_natCast : ∀ {n : ℕ}, n < 2 ^ 53 → round n = n

/-- Nothing is rounded. -/
instance (priority := low) exactly : Rounding where
  round := id
  round_mono _ h := h
  round_round _ := rfl
  round_natCast _ := rfl

/-- The doubles, as long as no result overflows. -/
abbrev doubles : Rounding where
  round := nearest
  round_mono := nearest_mono
  round_round := nearest_nearest
  round_natCast := nearest_natCast

/-- A sum with a number that is not negative is not below a representable number. -/
theorem le_round_add [Rounding] {p q : ℚ} (hp : 0 ≤ p) (hround : Rounding.round p = p)
    (hq : 0 ≤ q) : p ≤ Rounding.round (p + q) := by
  have hmono := Rounding.round_mono hp (le_add_of_nonneg_right hq)
  rwa [hround] at hmono

end Prompta.Roundings
