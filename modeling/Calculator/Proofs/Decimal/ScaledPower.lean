import Mathlib.Algebra.Order.Field.Power
import Mathlib.Data.Rat.Cast.Order
import Mathlib.Tactic.FieldSimp
import Mathlib.Tactic.Linarith
import Mathlib.Tactic.Ring
import Calculator.Decimal.SafeInterval

/-! Powers of ten rounded to 64 bits. The significand of one is at most half a unit off, and so a
product with it is less than one unit off.
-/

namespace Calculator

/-- A quotient that is rounded to a whole number is at most one half off. -/
theorem abs_rounded_sub_le (a : Nat) {d : Nat} (positive : 0 < d)
    : |(((2 * a + d) / (2 * d) : Nat) : Rat) - a / d| ≤ 1 / 2 := by
  have divisor : (0 : Rat) < d := by exact_mod_cast positive
  set q := (2 * a + d) / (2 * d) with quotient
  have low : q * (2 * d) ≤ 2 * a + d := Nat.div_mul_le_self _ _
  have high : 2 * a + d < (q + 1) * (2 * d) := by
    rw [← Nat.div_lt_iff_lt_mul (by omega)]
    omega
  have low : (q : Rat) * (2 * d) ≤ 2 * a + d := by exact_mod_cast low
  have high : (2 : Rat) * a + d < (q + 1) * (2 * d) := by exact_mod_cast high
  have value : (a : Rat) = a / d * d := (div_mul_cancel₀ _ divisor.ne').symm
  rw [value] at low high
  rw [abs_sub_le_iff]
  constructor
  · refine le_of_mul_le_mul_right ?_ divisor
    linarith
  · refine le_of_mul_le_mul_right ?_ divisor
    linarith

namespace ScaledPower

/-- The exact power of ten in the units of the rounded one. -/
def ratio (k : Int) : Rat :=
  10 ^ k / 2 ^ (ofExponent k).exponent

/-- The power is a quotient of whole numbers that is rounded. -/
theorem exists_quotient (k : Int)
    : ∃ a d, 0 < d ∧ (ofExponent k).significand = (2 * a + d) / (2 * d) ∧ ratio k = a / d := by
  unfold ratio ofExponent
  simp only [Nat.pow_eq, Nat.shiftLeft_eq]
  set power := 10 ^ k.natAbs with exact_power
  by_cases whole : 0 ≤ k
  · rw [if_pos whole]
    refine ⟨_, 2 ^ (power.log2 - 63), Nat.two_pow_pos _, rfl, ?_⟩
    have value : (10 : Rat) ^ k = power := by
      obtain ⟨n, rfl⟩ := Int.eq_ofNat_of_zero_le whole
      simp [exact_power]
    have units
        : (2 : Rat) ^ ((power.log2 : Int) - 63) * 2 ^ (63 - power.log2)
          = 2 ^ (power.log2 - 63) := by
      rw [← zpow_natCast, ← zpow_natCast, ← zpow_add₀ (by norm_num)]
      congr 1
      omega
    rw [value]
    push_cast
    rw [← units]
    have unit : (2 : Rat) ^ ((power.log2 : Int) - 63) ≠ 0 := (zpow_pos (by norm_num) _).ne'
    field_simp
  · rw [if_neg whole]
    refine ⟨_, power, by positivity, rfl, ?_⟩
    have value : (10 : Rat) ^ k = (power : Rat)⁻¹ := by
      obtain ⟨n, rfl⟩ := Int.exists_eq_neg_ofNat (by omega : k ≤ 0)
      simp [exact_power]
    have units : (2 : Rat) ^ (-(64 + power.log2 : Int)) = (2 ^ (64 + power.log2))⁻¹ := by
      rw [zpow_neg]
      norm_cast
    rw [value, units]
    push_cast
    rw [div_inv_eq_mul, inv_mul_eq_div]

/-- The significand is at most half a unit off. -/
theorem abs_significand_sub_ratio_le (k : Int)
    : |((ofExponent k).significand : Rat) - ratio k| ≤ 1 / 2 := by
  obtain ⟨a, d, positive, significand, exact_value⟩ := exists_quotient k
  rw [significand, exact_value]
  exact abs_rounded_sub_le a positive

theorem scale_le (p : ScaledPower) {n : Nat} (small : n < 2 ^ 64)
    : p.scale n ≤ p.significand := by
  rw [scale, Nat.pow_eq, Nat.shiftRight_eq_div_pow]
  refine Nat.le_of_lt_succ (Nat.div_lt_of_lt_mul ?_)
  have product := Nat.mul_le_mul_right p.significand small.le
  omega

/-- A product with the rounded power is less than one unit off. Half a unit is due to the power and
half a unit to the product.
-/
theorem abs_scale_sub_lt {n : Nat} (small : n < 2 ^ 64) (k : Int)
    : |((ofExponent k).scale n : Rat) - n * ratio k / 2 ^ 64| < 1 := by
  have power := abs_significand_sub_ratio_le k
  have product := abs_rounded_sub_le (n * (ofExponent k).significand) (Nat.two_pow_pos 64)
  have halves
      : (2 * (n * (ofExponent k).significand) + 2 ^ 64) / (2 * 2 ^ 64)
        = (ofExponent k).scale n := by
    rw [scale, Nat.pow_eq, Nat.shiftRight_eq_div_pow]
    omega
  rw [halves, Nat.cast_mul, Nat.cast_pow, Nat.cast_ofNat] at product
  set c := ((ofExponent k).significand : Rat)
  have part : (n : Rat) / 2 ^ 64 < 1 := by
    rw [div_lt_one₀ (by norm_num)]
    exact_mod_cast small
  have moved : |(n : Rat) * c / 2 ^ 64 - n * ratio k / 2 ^ 64| < 1 / 2 := by
    have nonneg : 0 ≤ (n : Rat) / 2 ^ 64 := div_nonneg (Nat.cast_nonneg n) (by norm_num)
    calc
      |(n : Rat) * c / 2 ^ 64 - n * ratio k / 2 ^ 64| = |n / 2 ^ 64 * (c - ratio k)| := by
        congr 1
        ring
      _ = n / 2 ^ 64 * |c - ratio k| := by rw [abs_mul, abs_of_nonneg nonneg]
      _ ≤ n / 2 ^ 64 * (1 / 2) := mul_le_mul_of_nonneg_left power nonneg
      _ < 1 / 2 := by linarith
  calc
    |((ofExponent k).scale n : Rat) - n * ratio k / 2 ^ 64|
        ≤ |((ofExponent k).scale n : Rat) - n * c / 2 ^ 64|
          + |n * c / 2 ^ 64 - n * ratio k / 2 ^ 64| := abs_sub_le _ _ _
    _ < 1 := by linarith

end ScaledPower

end Calculator
