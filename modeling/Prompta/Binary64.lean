import Mathlib.Data.Int.Log
import Mathlib.Tactic.Ring
import Prompta.Decimals

/-!
Floating-point numbers that are not negative, in the double format: 53 significant bits, rounding
to the nearest and in a tie to the even one, and an overflow above. Natural numbers below `2 ^ 53`
are exact, and larger ones stay at least as large. Rounding keeps the order of the numbers.
-/
namespace Prompta.Binary64

open Decimals

/-- The distance of the numbers around one, which is smallest among the subnormal ones. -/
def spacing (q : ℚ) : ℚ := (2 : ℚ) ^ max (Int.log 2 q - 52) (-1074)

/-- The nearest number, or none for an overflow. -/
def round (q : ℚ) : Option ℚ :=
  let rounded := roundHalfEven (q / spacing q) * spacing q
  if (2 : ℚ) ^ 1024 ≤ rounded then none else some rounded

def add (x y : Option ℚ) : Option ℚ := x.bind fun a => y.bind fun b => round (a + b)

/-- The product with a number that is representable. -/
def scale (x : Option ℚ) (factor : ℕ) : Option ℚ := x.bind fun a => round (a * factor)

theorem roundHalfEven_intCast (n : ℤ) : roundHalfEven (n : ℚ) = n := by
  unfold roundHalfEven
  rw [Int.floor_intCast, if_pos (by linarith)]

theorem spacing_pos (q : ℚ) : 0 < spacing q := zpow_pos (by norm_num) _

theorem log_natCast (n : ℕ) : Int.log 2 (n : ℚ) = Nat.log 2 n := Int.log_natCast 2 n

/-- The spacing below `2 ^ 53` divides all natural numbers. -/
theorem round_exact {n : ℕ} (h : n < 2 ^ 53) : round n = some (n : ℚ) := by
  have hlog : Nat.log 2 n ≤ 52 := by
    by_cases hn : n = 0
    · rw [hn, Nat.log_zero_right]
      omega
    · have hlt := (Nat.log_lt_iff_lt_pow (by omega) hn).mpr h
      omega
  have hspacing : spacing n * (2 : ℚ) ^ (52 - Nat.log 2 n) = 1 := by
    have hmax : max ((Nat.log 2 n : ℤ) - 52) (-1074) = -((52 - Nat.log 2 n : ℕ) : ℤ) := by omega
    rw [spacing, log_natCast, hmax, zpow_neg, zpow_natCast, inv_mul_cancel₀ (by positivity)]
  have hdiv : (n : ℚ) / spacing n = ((n * 2 ^ (52 - Nat.log 2 n) : ℕ) : ℤ) := by
    rw [div_eq_iff (ne_of_gt (spacing_pos _))]
    push_cast
    rw [mul_assoc, mul_comm _ (spacing n), hspacing, mul_one]
  have hrounded : roundHalfEven ((n : ℚ) / spacing n) * spacing n = n := by
    rw [hdiv, roundHalfEven_intCast]
    push_cast
    rw [mul_assoc, mul_comm _ (spacing n), hspacing, mul_one]
  have hsmall : ¬(2 : ℚ) ^ 1024 ≤ n := by
    rw [not_le]
    calc (n : ℚ) < 2 ^ 53 := by exact_mod_cast h
      _ ≤ 2 ^ 1024 := pow_le_pow_right₀ (by norm_num) (by omega)
  unfold round
  dsimp only
  rw [hrounded, if_neg hsmall]

/-- A large number is rounded to one that is not below `2 ^ 53`. -/
theorem round_large {n : ℕ} (h : 2 ^ 53 ≤ n) {r : ℚ} (hr : round n = some r) :
    ∃ m : ℕ, r = m ∧ 2 ^ 53 ≤ m := by
  have hn : n ≠ 0 := by
    rintro rfl
    omega
  have hlog : 53 ≤ Nat.log 2 n := (Nat.le_log_iff_pow_le (by omega) hn).mpr h
  have hspacing : spacing n = (2 : ℚ) ^ (Nat.log 2 n - 52) := by
    have hmax : max ((Nat.log 2 n : ℤ) - 52) (-1074) = ((Nat.log 2 n - 52 : ℕ) : ℤ) := by omega
    rw [spacing, log_natCast, hmax, zpow_natCast]
  have hlow : ((2 ^ 52 : ℤ) : ℚ) ≤ (n : ℚ) / spacing n := by
    rw [le_div_iff₀ (spacing_pos _), hspacing]
    have hpow : 2 ^ 52 * 2 ^ (Nat.log 2 n - 52) ≤ n := by
      rw [← pow_add, show 52 + (Nat.log 2 n - 52) = Nat.log 2 n by omega]
      exact Nat.pow_log_le_self 2 hn
    exact_mod_cast hpow
  have hround : 2 ^ 52 ≤ roundHalfEven ((n : ℚ) / spacing n) := by
    have hmono := roundHalfEven_mono hlow
    rw [roundHalfEven_intCast] at hmono
    exact hmono
  unfold round at hr
  dsimp only at hr
  split_ifs at hr
  obtain rfl := Option.some.inj hr
  refine ⟨(roundHalfEven ((n : ℚ) / spacing n)).toNat * 2 ^ (Nat.log 2 n - 52), ?_, ?_⟩
  · rw [hspacing]
    push_cast
    rw [← hspacing]
    congr 1
    have hnonneg : 0 ≤ roundHalfEven ((n : ℚ) / spacing n) := by omega
    exact_mod_cast (Int.toNat_of_nonneg hnonneg).symm
  · calc 2 ^ 53 = 2 ^ 52 * 2 ^ 1 := by norm_num
      _ ≤ (roundHalfEven ((n : ℚ) / spacing n)).toNat * 2 ^ (Nat.log 2 n - 52) := by
        apply Nat.mul_le_mul
        · omega
        · exact Nat.pow_le_pow_right (by omega) (by omega)

/-- The number stands for a natural one: it is the same below `2 ^ 53`, and above it is above or
has overflowed. -/
structure Approximates (x : Option ℚ) (n : ℕ) : Prop where
  same : n < 2 ^ 53 → x = some (n : ℚ)
  large : 2 ^ 53 ≤ n → ∀ r, x = some r → ∃ m : ℕ, r = m ∧ 2 ^ 53 ≤ m

theorem approximates_round (n : ℕ) : Approximates (round n) n :=
  ⟨fun h => round_exact h, fun h _ hr => round_large h hr⟩

/-- A number that stands for a natural one is natural. -/
theorem Approximates.natural {x : Option ℚ} {n : ℕ} (h : Approximates x n) {r : ℚ}
    (hr : x = some r) :
    ∃ m : ℕ, r = m ∧ (m = n ∨ 2 ^ 53 ≤ m ∧ 2 ^ 53 ≤ n) := by
  by_cases hn : n < 2 ^ 53
  · rw [h.same hn] at hr
    exact ⟨n, (Option.some.inj hr).symm, Or.inl rfl⟩
  · obtain ⟨m, hm, hle⟩ := h.large (by omega) r hr
    exact ⟨m, hm, Or.inr ⟨hle, by omega⟩⟩

theorem Approximates.add {x y : Option ℚ} {n k : ℕ} (hx : Approximates x n)
    (hy : Approximates y k) :
    Approximates (add x y) (n + k) := by
  constructor
  · intro hsum
    rw [hx.same (by omega), hy.same (by omega)]
    show round ((n : ℚ) + k) = _
    rw [← Nat.cast_add]
    exact round_exact hsum
  · intro hsum r hr
    obtain ⟨c, hc, hr⟩ := Option.bind_eq_some_iff.mp hr
    obtain ⟨d, hd, hr⟩ := Option.bind_eq_some_iff.mp hr
    obtain ⟨a, rfl, ha⟩ := hx.natural hc
    obtain ⟨b, rfl, hb⟩ := hy.natural hd
    rw [← Nat.cast_add] at hr
    exact round_large (by omega) hr

theorem Approximates.scale {x : Option ℚ} {n : ℕ} (hx : Approximates x n) {factor : ℕ}
    (hfactor : 0 < factor) : Approximates (scale x factor) (n * factor) := by
  have hle : n ≤ n * factor := Nat.le_mul_of_pos_right n hfactor
  constructor
  · intro hproduct
    rw [hx.same (by omega)]
    show round ((n : ℚ) * factor) = _
    rw [← Nat.cast_mul]
    exact round_exact hproduct
  · intro hproduct r hr
    obtain ⟨b, hb, hr⟩ := Option.bind_eq_some_iff.mp hr
    obtain ⟨a, rfl, hcases⟩ := hx.natural hb
    rw [← Nat.cast_mul] at hr
    have hlarge : 2 ^ 53 ≤ a * factor := by
      rcases hcases with hsame | hboth
      · rw [hsame]
        exact hproduct
      · exact hboth.1.trans (Nat.le_mul_of_pos_right a hfactor)
    exact round_large hlarge hr

/-- The nearest number, without the bound of the format. -/
def nearest (q : ℚ) : ℚ := roundHalfEven (q / spacing |q|) * spacing |q|

theorem nearest_nonneg_eq {q : ℚ} (hq : 0 ≤ q) :
    nearest q = roundHalfEven (q / spacing q) * spacing q := by
  unfold nearest
  rw [abs_of_nonneg hq]

theorem zpow_log_le {q : ℚ} (hq : 0 < q) : (2 : ℚ) ^ Int.log 2 q ≤ q := by
  have h := Int.zpow_log_le_self (b := 2) (by omega) hq
  exact_mod_cast h

theorem lt_zpow_log {q : ℚ} : q < (2 : ℚ) ^ (Int.log 2 q + 1) := by
  have h := Int.lt_zpow_succ_log_self (b := 2) (by omega) q
  exact_mod_cast h

theorem log_le_of_le_zpow {q : ℚ} (hq : 0 < q) {k : ℤ} (h : q ≤ 2 ^ k) : Int.log 2 q ≤ k := by
  have hmono := Int.log_mono_right (b := 2) hq h
  have hpower : Int.log 2 ((2 : ℚ) ^ k) = k := by
    have h := Int.log_zpow (R := ℚ) (b := 2) (by omega) k
    exact_mod_cast h
  rwa [hpower] at hmono

/-- A multiple of the spacing that is not below the number is not below the nearest one. -/
theorem nearest_le {q : ℚ} (hq : 0 ≤ q) {m : ℤ} (h : q ≤ m * spacing q) :
    nearest q ≤ m * spacing q := by
  have hpos := spacing_pos q
  have hdiv : q / spacing q ≤ (m : ℚ) := (div_le_iff₀ hpos).mpr h
  have hround := roundHalfEven_mono hdiv
  rw [roundHalfEven_intCast] at hround
  rw [nearest_nonneg_eq hq]
  exact mul_le_mul_of_nonneg_right (by exact_mod_cast hround) hpos.le

theorem le_nearest {q : ℚ} (hq : 0 ≤ q) {m : ℤ} (h : m * spacing q ≤ q) :
    m * spacing q ≤ nearest q := by
  have hpos := spacing_pos q
  have hdiv : (m : ℚ) ≤ q / spacing q := (le_div_iff₀ hpos).mpr h
  have hround := roundHalfEven_mono hdiv
  rw [roundHalfEven_intCast] at hround
  rw [nearest_nonneg_eq hq]
  exact mul_le_mul_of_nonneg_right (by exact_mod_cast hround) hpos.le

/-- A multiple of its spacing is representable. -/
theorem nearest_multiple {q : ℚ} (hq : 0 ≤ q) {m : ℤ} (h : q = m * spacing q) : nearest q = q := by
  have hle := nearest_le hq h.le
  have hge := le_nearest hq h.ge
  linarith

/-- A power of two is a multiple of every smaller spacing. -/
theorem zpow_multiple {q : ℚ} {k : ℤ} (hk : max (Int.log 2 q - 52) (-1074) ≤ k) :
    ∃ m : ℤ, (2 : ℚ) ^ k = m * spacing q := by
  refine ⟨2 ^ (k - max (Int.log 2 q - 52) (-1074)).toNat, ?_⟩
  unfold spacing
  generalize max (Int.log 2 q - 52) (-1074) = e at hk ⊢
  push_cast
  rw [← zpow_natCast, ← zpow_add₀ (by norm_num)]
  congr 1
  omega

theorem nearest_le_zpow {q : ℚ} (hq : 0 ≤ q) {k : ℤ}
    (hk : max (Int.log 2 q - 52) (-1074) ≤ k) (h : q ≤ 2 ^ k) : nearest q ≤ 2 ^ k := by
  obtain ⟨m, hm⟩ := zpow_multiple hk
  rw [hm] at h ⊢
  exact nearest_le hq h

theorem zpow_le_nearest {q : ℚ} (hq : 0 ≤ q) {k : ℤ}
    (hk : max (Int.log 2 q - 52) (-1074) ≤ k) (h : (2 : ℚ) ^ k ≤ q) : 2 ^ k ≤ nearest q := by
  obtain ⟨m, hm⟩ := zpow_multiple hk
  rw [hm] at h ⊢
  exact le_nearest hq h

theorem nearest_nonneg {q : ℚ} (hq : 0 ≤ q) : 0 ≤ nearest q := by
  have h := le_nearest hq (m := 0) (by rw [Int.cast_zero, zero_mul]; exact hq)
  rwa [Int.cast_zero, zero_mul] at h

theorem nearest_mono {p q : ℚ} (hp : 0 ≤ p) (h : p ≤ q) : nearest p ≤ nearest q := by
  have hq := hp.trans h
  rcases hp.eq_or_lt with rfl | hpos
  · rw [nearest_multiple (q := 0) le_rfl (m := 0) (by rw [Int.cast_zero, zero_mul])]
    exact nearest_nonneg hq
  have hlog : Int.log 2 p ≤ Int.log 2 q := Int.log_mono_right hpos h
  by_cases hsame : max (Int.log 2 p - 52) (-1074) = max (Int.log 2 q - 52) (-1074)
  · have hspacing : spacing p = spacing q := congrArg (fun e : ℤ => (2 : ℚ) ^ e) hsame
    rw [nearest_nonneg_eq hp, nearest_nonneg_eq hq, hspacing]
    have hround := roundHalfEven_mono (div_le_div_of_nonneg_right h (spacing_pos q).le)
    exact mul_le_mul_of_nonneg_right (by exact_mod_cast hround) (spacing_pos q).le
  · -- a power of two lies between the numbers
    have hpower : p ≤ 2 ^ Int.log 2 q :=
      lt_zpow_log.le.trans (zpow_le_zpow_right₀ (by norm_num) (by omega))
    calc nearest p ≤ 2 ^ Int.log 2 q := nearest_le_zpow hp (by omega) hpower
      _ ≤ nearest q := zpow_le_nearest hq (by omega) (zpow_log_le (hpos.trans_le h))

theorem nearest_nearest {q : ℚ} (hq : 0 ≤ q) : nearest (nearest q) = nearest q := by
  rcases hq.eq_or_lt with rfl | hpos
  · have hzero : nearest 0 = 0 := nearest_multiple le_rfl (m := 0) (by rw [Int.cast_zero, zero_mul])
    rw [hzero, hzero]
  have hr := nearest_nonneg hq
  rcases hr.eq_or_lt with hzero | hrpos
  · rw [← hzero]
    exact nearest_multiple le_rfl (m := 0) (by rw [Int.cast_zero, zero_mul])
  have hgrid := nearest_nonneg_eq hq
  by_cases hsmall : max (Int.log 2 (nearest q) - 52) (-1074) ≤ max (Int.log 2 q - 52) (-1074)
  · obtain ⟨m, hm⟩ := zpow_multiple hsmall
    refine nearest_multiple hr (m := roundHalfEven (q / spacing q) * m) ?_
    rw [Int.cast_mul, mul_assoc, ← hm]
    exact hgrid
  · -- the number was rounded up to the next power of two
    have hle : nearest q ≤ 2 ^ max (Int.log 2 q + 1) (-1074) := by
      refine nearest_le_zpow hq (by omega) (lt_zpow_log.le.trans ?_)
      exact zpow_le_zpow_right₀ (by norm_num) (le_max_left _ _)
    have hlog := log_le_of_le_zpow hrpos hle
    have hsame : nearest q = 2 ^ Int.log 2 (nearest q) := by
      refine le_antisymm (hle.trans ?_) (zpow_log_le hrpos)
      exact zpow_le_zpow_right₀ (by norm_num) (by omega)
    obtain ⟨m, hm⟩ := zpow_multiple (q := nearest q) (k := Int.log 2 (nearest q)) (by omega)
    exact nearest_multiple hr (hsame.trans hm)

theorem nearest_natCast {n : ℕ} (h : n < 2 ^ 53) : nearest n = n := by
  have hround := round_exact h
  unfold round at hround
  dsimp only at hround
  split_ifs at hround
  rw [nearest_nonneg_eq (by positivity)]
  exact Option.some.inj hround

end Prompta.Binary64
