import Mathlib.Algebra.Order.Floor.Ring
import Mathlib.Data.Rat.Floor
import Calculator.Operation
import Calculator.Proofs.Binary.Signed

/-! Remainders by their exact values. The remainder of a division that truncates is exact. The one
of a division that rounds down is the nearest number to the exact one, and so it can be as large as
the divisor, but not larger.
-/

namespace Calculator

namespace Binary

--------------------------------------------------------------------------------
-- Exact remainders
--------------------------------------------------------------------------------

/-- The exact remainder of a division that rounds down. -/
def exactRemainder (v w : Rat) : Rat :=
  v - w * ⌊v / w⌋

theorem exactRemainder_eq_mul_fract (v : Rat) {w : Rat} (nonzero : w ≠ 0)
    : exactRemainder v w = w * Int.fract (v / w) := by
  rw [exactRemainder, Int.fract, mul_sub, mul_div_cancel₀ v nonzero]

/-- The remainder is below the divisor, whatever the signs are. -/
theorem abs_exactRemainder_lt (v : Rat) {w : Rat} (nonzero : w ≠ 0)
    : |exactRemainder v w| < |w| := by
  have fract := Int.fract_nonneg (v / w)
  rw [exactRemainder_eq_mul_fract v nonzero, abs_mul, abs_of_nonneg fract]
  exact mul_lt_of_lt_one_right (abs_pos.mpr nonzero) (Int.fract_lt_one _)

/-- Changing both signs changes the sign of the remainder. -/
theorem exactRemainder_withSign (negative : Bool) (v w : Rat)
    : exactRemainder (withSign negative v) (withSign negative w)
      = withSign negative (exactRemainder v w) := by
  cases negative with
  | false => rfl
  | true =>
      simp only [withSign, exactRemainder, if_true, neg_div_neg_eq]
      ring

/-- The remainder of a negative dividend is what is left up to the divisor. -/
theorem exactRemainder_neg {v w : Rat} (positive : 0 < w) (rest : exactRemainder v w ≠ 0)
    : exactRemainder (-v) w = w - exactRemainder v w := by
  have fract : Int.fract (v / w) ≠ 0 := by
    rw [exactRemainder_eq_mul_fract v positive.ne'] at rest
    exact right_ne_zero_of_mul rest
  rw [exactRemainder_eq_mul_fract _ positive.ne', exactRemainder_eq_mul_fract v positive.ne',
    neg_div, Int.fract_neg fract, mul_sub, mul_one]

/-- A multiple of the divisor leaves nothing, whatever its sign. -/
theorem exactRemainder_neg_of_eq_zero {v w : Rat} (positive : 0 < w)
    (rest : exactRemainder v w = 0)
    : exactRemainder (-v) w = 0 := by
  have fract : Int.fract (v / w) = 0 := by
    rw [exactRemainder_eq_mul_fract v positive.ne'] at rest
    exact (mul_eq_zero.mp rest).resolve_left positive.ne'
  rw [exactRemainder_eq_mul_fract _ positive.ne', neg_div, Int.fract_neg_eq_zero.mpr fract,
    mul_zero]

/-- The remainder of whole numbers of units. -/
theorem exactRemainder_magnitude (m n : Nat) (e : Int)
    : exactRemainder (magnitude m e) (magnitude n e) = magnitude (m % n) e := by
  have unit := (unit_pos e).ne'
  have quotient : ⌊magnitude m e / magnitude n e⌋ = ((m / n : Nat) : Int) := by
    rw [magnitude, magnitude, mul_div_mul_right _ _ unit]
    exact_mod_cast Rat.floor_natCast_div_natCast m n
  have digits : (m : Rat) = n * (m / n : Nat) + (m % n : Nat) := by
    exact_mod_cast (Nat.div_add_mod m n).symm
  rw [exactRemainder, quotient, magnitude, magnitude, magnitude, digits, Int.cast_natCast]
  ring

--------------------------------------------------------------------------------
-- Truncated remainders
--------------------------------------------------------------------------------

variable {x y : Float} {a b : Binary}

/-- A magnitude that is not above one within the range is within the range. -/
theorem Canonical.exponent_le_of_le {m n : Nat} {e f : Int} (canonical : Canonical m e)
    (other : Canonical n f) (range : f ≤ 971) (le : magnitude m e ≤ magnitude n f)
    : e ≤ 971 := by
  by_contra beyond
  exact absurd (other.lt_of_exponent_lt canonical (by omega)) le.not_gt

theorem unitsOf_exponent (b : Binary)
    : b.unitsOf b.exponent = b.significand := by
  simp [unitsOf]

/-- In the smaller units of two numbers the remainder has no more digits than one of them. -/
theorem units_mod_lt (a_canonical : Canonical a.significand a.exponent)
    (b_canonical : Canonical b.significand b.exponent) (nonzero : b.significand ≠ 0)
    : let e := min a.exponent b.exponent
      a.unitsOf e % b.unitsOf e < 2 ^ 53 := by
  intro e
  rcases min_choice a.exponent b.exponent with same | same
  · calc
      a.unitsOf e % b.unitsOf e ≤ a.unitsOf e := Nat.mod_le _ _
      _ = a.significand := by rw [show e = a.exponent from same, unitsOf_exponent]
      _ < 2 ^ 53 := a_canonical.small
  · have divisor : b.unitsOf e = b.significand := by
      rw [show e = b.exponent from same, unitsOf_exponent]
    calc
      a.unitsOf e % b.unitsOf e < b.unitsOf e := Nat.mod_lt _ (by omega)
      _ = b.significand := divisor
      _ < 2 ^ 53 := b_canonical.small

/-- The remainder of a division that truncates is exact and has the sign of the dividend. -/
theorem truncatedRemainder_spec (left : ofFloat? x = some a) (right : ofFloat? y = some b)
    (nonzero : b.significand ≠ 0)
    : ∃ c, ofFloat? (truncatedRemainder x y) = some c ∧ c.negative = a.negative
        ∧ c.absolute = exactRemainder a.absolute b.absolute := by
  obtain ⟨-, a_canonical, a_range⟩ := parts_of_ofFloat? left
  obtain ⟨-, b_canonical, -⟩ := parts_of_ofFloat? right
  let e := min a.exponent b.exponent
  let n := a.unitsOf e % b.unitsOf e
  have a_units := a.magnitude_unitsOf (min_le_left _ _ : e ≤ a.exponent)
  have b_units := b.magnitude_unitsOf (min_le_right _ _ : e ≤ b.exponent)
  have remainder : truncatedRemainder x y = toFloat ⟨a.negative, n, e⟩ := by
    unfold truncatedRemainder
    rw [left, right]
    exact if_neg nonzero
  obtain ⟨m, f, canonical, same⟩ :=
    exists_canonical (units_mod_lt a_canonical b_canonical nonzero)
      (le_min a_canonical.least b_canonical.least)
  change magnitude m f = magnitude n e at same
  obtain ⟨m', f', near, stored⟩ := toFloat_eq_store ⟨a.negative, n, e⟩
  change Nearest (magnitude n e) m' f' at near
  obtain ⟨rfl, rfl⟩ := near.unique (same ▸ canonical.nearest)
  have le : magnitude m' f' ≤ a.absolute := by
    rw [same, ← a_units, magnitude_le_iff]
    exact Nat.mod_le _ _
  have range := canonical.exponent_le_of_le a_canonical a_range le
  refine ⟨⟨a.negative, m', f'⟩, ?_, rfl, ?_⟩
  · rw [remainder, stored, ofFloat?_store _ canonical range]
  · rw [← a_units, ← b_units, exactRemainder_magnitude]
    exact same

--------------------------------------------------------------------------------
-- Floored remainders
--------------------------------------------------------------------------------

theorem exactRemainder_of_same (same : a.negative = b.negative)
    : exactRemainder a.signedValue b.signedValue
      = withSign b.negative (exactRemainder a.absolute b.absolute) := by
  rw [signedValue, signedValue, same, exactRemainder_withSign]

theorem exactRemainder_of_opposite (opposite : a.negative ≠ b.negative)
    : exactRemainder a.signedValue b.signedValue
      = withSign b.negative (exactRemainder (-a.absolute) b.absolute) := by
  rw [signedValue, signedValue, withSign_neg opposite, exactRemainder_withSign]

/-- No remainder is left whatever the signs are. -/
theorem exactRemainder_signedValue_eq_zero (positive : 0 < b.absolute)
    (rest : exactRemainder a.absolute b.absolute = 0)
    : exactRemainder a.signedValue b.signedValue = 0 := by
  by_cases same : a.negative = b.negative
  · rw [exactRemainder_of_same same, rest, withSign_zero]
  · rw [exactRemainder_of_opposite same, exactRemainder_neg_of_eq_zero positive rest, withSign_zero]

/-- The divisor is added to a remainder of the other sign that is not zero. -/
theorem flooredRemainder_eq {c : Binary} (rest : ofFloat? (truncatedRemainder x y) = some c)
    (right : ofFloat? y = some b) (nonzero : b.significand ≠ 0)
    : flooredRemainder x y
      = if c.significand ≠ 0 ∧ c.negative ≠ b.negative then truncatedRemainder x y + y
        else truncatedRemainder x y := by
  unfold flooredRemainder
  by_cases zero : c.significand = 0
  · simp [bne, (beq_zero_iff rest).mpr zero, zero]
  · have other : (truncatedRemainder x y == 0) = false := by
      simpa using mt (beq_zero_iff rest).mp zero
    simp [bne, other, zero, lt_zero_iff rest zero, lt_zero_iff right nonzero]

/-- A remainder of the other sign is as far below the divisor as the exact one is. The sum is
rounded, and so it may reach the divisor.
-/
theorem add_divisor_spec {r : Float} {c : Binary} (rest : ofFloat? r = some c)
    (right : ofFloat? y = some b) (c_nonzero : c.significand ≠ 0) (b_nonzero : b.significand ≠ 0)
    (opposite : c.negative ≠ b.negative) (lt : c.absolute < b.absolute)
    : ∃ d, ofFloat? (r + y) = some d ∧ d.negative = b.negative
        ∧ d.IsNearest (withSign b.negative (b.absolute - c.absolute))
        ∧ (d.absolute < b.absolute ∨ d = b) := by
  obtain ⟨-, b_canonical, range⟩ := parts_of_ofFloat? right
  have gap : 0 < b.absolute - c.absolute := sub_pos.mpr lt
  have sum : c.signedValue + b.signedValue = withSign b.negative (b.absolute - c.absolute) := by
    rw [signedValue, signedValue, withSign_neg opposite, withSign_add, neg_add_eq_sub]
  obtain ⟨m, e, near, stored⟩ := add_eq_store rest right c_nonzero b_nonzero
  rw [sum] at near stored
  rw [abs_withSign, abs_of_pos gap] at near
  rw [decide_withSign_lt_zero _ gap] at stored
  have le : magnitude m e ≤ b.absolute :=
    near.le_of_le b_canonical (sub_le_self _ (absolute_pos c_nonzero).le)
  have finite := ofFloat?_store b.negative near.canonical
    (near.canonical.exponent_le_of_le b_canonical range le)
  refine ⟨⟨b.negative, m, e⟩, stored ▸ finite, rfl, near.isNearest gap.le _, ?_⟩
  rcases le.lt_or_eq with below | same
  · exact .inl below
  · obtain ⟨rfl, rfl⟩ := near.canonical.unique b_canonical same
    exact .inr rfl

/-- The remainder of a division that rounds down is zero or has the sign of the divisor. It is the
nearest number to the exact remainder, and below the divisor unless it is the divisor itself.
-/
theorem flooredRemainder_spec (left : ofFloat? x = some a) (right : ofFloat? y = some b)
    (nonzero : b.significand ≠ 0)
    : ∃ c, ofFloat? (flooredRemainder x y) = some c
        ∧ (c.significand = 0 ∨ c.negative = b.negative)
        ∧ c.IsNearest (exactRemainder a.signedValue b.signedValue)
        ∧ (c.absolute < b.absolute ∨ c = b) := by
  obtain ⟨c, rest, sign, value⟩ := truncatedRemainder_spec left right nonzero
  have positive := absolute_pos nonzero
  have lt : c.absolute < b.absolute := by
    calc
      c.absolute = exactRemainder a.absolute b.absolute := value
      _ ≤ |exactRemainder a.absolute b.absolute| := le_abs_self _
      _ < |b.absolute| := abs_exactRemainder_lt _ positive.ne'
      _ = b.absolute := abs_of_pos positive
  rw [flooredRemainder_eq rest right nonzero]
  by_cases zero : c.significand = 0
  · rw [if_neg fun added => added.1 zero]
    have none : c.absolute = 0 := absolute_eq_zero zero
    have own : c.signedValue = 0 := by rw [signedValue, none, withSign_zero]
    refine ⟨c, rest, .inl zero, ?_, .inl lt⟩
    rw [exactRemainder_signedValue_eq_zero positive (value.symm.trans none), ← own]
    exact c.isNearest_signedValue
  · by_cases same : c.negative = b.negative
    · rw [if_neg fun added => added.2 same]
      refine ⟨c, rest, .inr same, ?_, .inl lt⟩
      rw [exactRemainder_of_same (sign ▸ same), ← value, ← same]
      exact c.isNearest_signedValue
    · rw [if_pos ⟨zero, same⟩]
      obtain ⟨d, sum, d_sign, near, below⟩ := add_divisor_spec rest right zero nonzero same lt
      refine ⟨d, sum, .inr d_sign, ?_, below⟩
      rw [exactRemainder_of_opposite (sign ▸ same), exactRemainder_neg positive, ← value]
      · exact near
      · exact value ▸ (absolute_pos zero).ne'

end Binary

open Binary

theorem finiteResult_of_ofFloat? {x : Float} {b : Binary} (operation : Symbol)
    (finite : ofFloat? x = some b)
    : finiteResult operation x = .ok x := by
  rw [finiteResult, isNaN_eq_false finite, isInf_eq_false finite]
  rfl

/-- The remainder of finite numbers by a divisor that is not zero never fails. It is zero or has
the sign of the divisor, and it is the nearest number to the exact remainder of the division that
rounds down. It is below the divisor, as the exact one is, unless the divisor itself is the nearest
number to the exact one. Witness: the truncated remainder is exact, and adding the divisor to it
does not round beyond the divisor.
-/
theorem Operator.rem_eq_nearest {x y : Float} {a b : Binary} (left : ofFloat? x = some a)
    (right : ofFloat? y = some b) (nonzero : b.significand ≠ 0)
    : ∃ r c, Operator.rem.apply x y = .ok r ∧ ofFloat? r = some c
        ∧ (c.significand = 0 ∨ c.negative = b.negative)
        ∧ c.IsNearest (exactRemainder a.signedValue b.signedValue)
        ∧ |exactRemainder a.signedValue b.signedValue| < b.absolute
        ∧ (c.absolute < b.absolute
          ∨ r = y ∧ b.IsNearest (exactRemainder a.signedValue b.signedValue)) := by
  have divisor : |b.signedValue| = b.absolute := by
    rw [signedValue, abs_withSign, abs_of_pos (absolute_pos nonzero)]
  have divides : (y == 0) = false := by simpa using mt (beq_zero_iff right).mp nonzero
  obtain ⟨c, finite, sign, near, below⟩ := flooredRemainder_spec left right nonzero
  refine ⟨flooredRemainder x y, c, ?_, finite, sign, near, ?_, ?_⟩
  · simp only [Operator.apply, divides, Bool.false_eq_true, if_false]
    exact finiteResult_of_ofFloat? _ finite
  · rw [← divisor]
    refine abs_exactRemainder_lt _ ?_
    rw [← abs_pos, divisor]
    exact absolute_pos nonzero
  · refine below.imp_right ?_
    rintro rfl
    exact ⟨(store_of_ofFloat? finite).symm.trans (store_of_ofFloat? right), near⟩

/-- The remainder of a small negative dividend: the exact one is just below the divisor, and the
nearest number to it is the divisor.
-/
theorem Operator.rem_reaches_divisor
    : ofFloat? (.ofBits 0xbc30000000000000) = some ⟨true, 2 ^ 52, -112⟩
      ∧ ofFloat? 1 = some ⟨false, 2 ^ 52, -52⟩
      ∧ Operator.rem.apply (.ofBits 0xbc30000000000000) 1 = .ok 1
      ∧ ¬ ∃ r c, Operator.rem.apply (.ofBits 0xbc30000000000000) 1 = .ok r
          ∧ ofFloat? r = some c ∧ c.absolute < absolute ⟨false, 2 ^ 52, -52⟩ := by
  have one : ofFloat? 1 = some ⟨false, 2 ^ 52, -52⟩ := by decide +kernel
  have result : Operator.rem.apply (.ofBits 0xbc30000000000000) 1 = .ok 1 := by decide +kernel
  refine ⟨by decide +kernel, one, result, ?_⟩
  rintro ⟨r, c, same, finite, below⟩
  rw [result] at same
  cases same
  rw [one] at finite
  cases finite
  exact absurd below (lt_irrefl _)

/-- A remainder that gets the divisor added: it is two, the exact remainder. -/
theorem Operator.rem_of_negative_seven
    : ofFloat? (-7) = some ⟨true, 7 * 2 ^ 50, -50⟩
      ∧ ofFloat? 3 = some ⟨false, 3 * 2 ^ 51, -51⟩
      ∧ Operator.rem.apply (-7) 3 = .ok 2
      ∧ ∃ c, ofFloat? 2 = some c ∧ (c.significand = 0 ∨ c.negative = false) ∧ c.IsNearest 2
        ∧ (c.absolute < 3 ∨ (2 : Float) = 3 ∧ IsNearest ⟨false, 3 * 2 ^ 51, -51⟩ 2) := by
  have dividend : ofFloat? (-7) = some ⟨true, 7 * 2 ^ 50, -50⟩ := by decide +kernel
  have divisor : ofFloat? 3 = some ⟨false, 3 * 2 ^ 51, -51⟩ := by decide +kernel
  have result : Operator.rem.apply (-7) 3 = .ok 2 := by decide +kernel
  have three : absolute ⟨false, 3 * 2 ^ 51, -51⟩ = 3 := by norm_num [absolute, magnitude]
  have two
      : exactRemainder (signedValue ⟨true, 7 * 2 ^ 50, -50⟩)
          (signedValue ⟨false, 3 * 2 ^ 51, -51⟩)
        = 2 := by
    norm_num [exactRemainder, signedValue, withSign, absolute, magnitude]
  obtain ⟨r, c, applied, finite, sign, near, -, below⟩ :=
    Operator.rem_eq_nearest dividend divisor (by norm_num)
  rw [result] at applied
  cases applied
  rw [two] at near below
  rw [three] at below
  exact ⟨dividend, divisor, result, c, finite, sign, near, below⟩

end Calculator
