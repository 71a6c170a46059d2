import Calculator.Binary.Integral
import Calculator.Proofs.Binary.Arithmetic

/-! Whole numbers among the numbers. Those of up to 53 digits are stored exactly, and rounding
to a whole number gives the one that is at most one half away.
-/

namespace Calculator.Binary

theorem magnitude_whole (n : Nat)
    : magnitude n 0 = n := by
  rw [magnitude, zpow_zero, mul_one]

/-- A magnitude in units of at least one is whole. -/
theorem exists_whole (m : Nat) {e : Int} (units : 0 ≤ e)
    : ∃ n : Nat, magnitude m e = n :=
  ⟨m * 2 ^ (e - 0).toNat, (magnitude_shift_of_le m units).trans (magnitude_whole _)⟩

/-- Whole numbers of up to 53 digits are magnitudes. -/
theorem exists_canonical_whole {n : Nat} (small : n < 2 ^ 53)
    : ∃ m e, Canonical m e ∧ magnitude m e = n := by
  obtain ⟨m, e, canonical, value⟩ := exists_canonical (k := 0) small (by norm_num)
  exact ⟨m, e, canonical, value.trans (magnitude_whole n)⟩

/-- The whole number is at most one half below the exact magnitude or less than one half above
it. -/
theorem wholeMagnitude_bounds (m : Nat) (e : Int)
    : (wholeMagnitude m e : Rat) ≤ magnitude m e + 1 / 2
      ∧ magnitude m e < wholeMagnitude m e + 1 / 2 := by
  unfold wholeMagnitude
  by_cases whole : 0 ≤ e
  · have same : magnitude m e = (m <<< e.toNat : Nat) := by
      rw [magnitude_shift_of_le m whole, magnitude_whole, Nat.shiftLeft_eq, sub_zero]
    rw [if_pos whole, same]
    constructor <;> linarith
  · rw [if_neg whole]
    simp only [Nat.pow_eq]
    set unit := 2 ^ (-e).toNat with places
    have positive : 0 < unit := Nat.two_pow_pos _
    have divisor : (0 : Rat) < unit := by exact_mod_cast positive
    have value : magnitude m e = m / unit := by
      have exponent : e = -((-e).toNat : Int) := by omega
      rw [magnitude, exponent, zpow_neg, zpow_natCast, ← div_eq_mul_inv, places]
      push_cast
      simp
    set q := (2 * m + unit) / (2 * unit) with quotient
    have low : q * (2 * unit) ≤ 2 * m + unit := Nat.div_mul_le_self _ _
    have high : 2 * m + unit < (q + 1) * (2 * unit) := by
      rw [← Nat.div_lt_iff_lt_mul (by omega)]
      omega
    have low : (q : Rat) * (2 * unit) ≤ 2 * m + unit := by exact_mod_cast low
    have high : (2 : Rat) * m + unit < (q + 1) * (2 * unit) := by exact_mod_cast high
    have exact_value : (m : Rat) = magnitude m e * unit := by
      rw [value, div_mul_cancel₀ _ divisor.ne']
    rw [exact_value] at low high
    constructor
    · refine le_of_mul_le_mul_right ?_ divisor
      linarith
    · refine lt_of_mul_lt_mul_right ?_ divisor.le
      linarith

/-- Rounding to a whole number of up to 53 digits is exact. -/
theorem roundHalfAway_eq_store {x : Float} {b : Binary} (finite : ofFloat? x = some b)
    (small : wholeMagnitude b.significand b.exponent < 2 ^ 53)
    : ∃ m e, Canonical m e ∧ magnitude m e = wholeMagnitude b.significand b.exponent
        ∧ roundHalfAway x = store b.negative m e := by
  obtain ⟨m, e, canonical, value⟩ := exists_canonical_whole small
  have rounds
      : roundHalfAway x
        = { b with significand := wholeMagnitude b.significand b.exponent, exponent := 0 }.toFloat
      := by
    unfold roundHalfAway
    rw [finite]
  obtain ⟨n, f, nearest, stored⟩ :=
    toFloat_eq_store
      { b with significand := wholeMagnitude b.significand b.exponent, exponent := 0 }
  have exact_value := canonical.nearest
  rw [value, ← magnitude_whole] at exact_value
  obtain ⟨rfl, rfl⟩ := nearest.unique exact_value
  exact ⟨n, f, canonical, value, rounds.trans stored⟩

end Calculator.Binary
