import Calculator.Proofs.Binary.Arithmetic

/-! Numbers with their signs, which number is nearest to an exact value of either sign, and from
where on the nearest magnitude is beyond the range.
-/

namespace Calculator.Binary

open Float.Model Float.Model.UnpackedFloat

--------------------------------------------------------------------------------
-- Exact values
--------------------------------------------------------------------------------

/-- A magnitude with its sign. -/
def withSign (negative : Bool) (v : Rat) : Rat :=
  if negative then -v else v

/-- The exact value with its sign. -/
def signedValue (b : Binary) : Rat :=
  withSign b.negative b.absolute

theorem withSign_neg {s t : Bool} (opposite : s ≠ t) (v : Rat)
    : withSign s v = withSign t (-v) := by
  cases s <;> cases t <;> simp_all [withSign]

theorem withSign_zero (negative : Bool)
    : withSign negative 0 = 0 := by
  cases negative with
  | false => rfl
  | true => exact neg_zero

theorem withSign_add (negative : Bool) (v w : Rat)
    : withSign negative v + withSign negative w = withSign negative (v + w) := by
  cases negative with
  | false => rfl
  | true => simp only [withSign, if_true, neg_add]

theorem withSign_sub (negative : Bool) (v w : Rat)
    : withSign negative v - withSign negative w = withSign negative (v - w) := by
  cases negative with
  | false => rfl
  | true => simp only [withSign, if_true, neg_sub_neg, neg_sub]

theorem abs_withSign (negative : Bool) (v : Rat)
    : |withSign negative v| = |v| := by
  cases negative with
  | false => rfl
  | true => exact abs_neg v

theorem decide_withSign_lt_zero (negative : Bool) {v : Rat} (positive : 0 < v)
    : decide (withSign negative v < 0) = negative := by
  cases negative with
  | false => exact decide_eq_false positive.not_gt
  | true => exact decide_eq_true (neg_neg_of_pos positive)

theorem abs_withSign_sub (negative : Bool) (v w : Rat)
    : |withSign negative v - withSign negative w| = |v - w| := by
  rw [withSign_sub, abs_withSign]

/-- Magnitudes of different signs are as far apart as they are long together. -/
theorem abs_withSign_sub_of_ne {s t : Bool} (opposite : s ≠ t) {v w : Rat} (v_nonneg : 0 ≤ v)
    (w_nonneg : 0 ≤ w)
    : |withSign s v - withSign t w| = v + w := by
  rw [withSign_neg opposite, abs_withSign_sub, ← neg_add', abs_neg,
    abs_of_nonneg (add_nonneg v_nonneg w_nonneg)]

/-- Signs do not bring magnitudes closer together. -/
theorem abs_sub_le_abs_withSign_sub (s t : Bool) {v w : Rat} (v_nonneg : 0 ≤ v) (w_nonneg : 0 ≤ w)
    : |v - w| ≤ |withSign s v - withSign t w| := by
  by_cases same : s = t
  · rw [same, abs_withSign_sub]
  · rw [abs_withSign_sub_of_ne same v_nonneg w_nonneg, abs_le]
    constructor <;> linarith

--------------------------------------------------------------------------------
-- The nearest number
--------------------------------------------------------------------------------

/-- No finite number is nearer to `q`, and if another one is as near then the significand is even.
-/
structure IsNearest (b : Binary) (q : Rat) : Prop where
  le : ∀ y c, ofFloat? y = some c → |q - b.signedValue| ≤ |q - c.signedValue|
  even
    : ∀ y c, ofFloat? y = some c → |q - b.signedValue| = |q - c.signedValue|
      → c.signedValue = b.signedValue ∨ b.significand % 2 = 0

/-- A number is the nearest one to its own value. -/
theorem isNearest_signedValue (c : Binary)
    : c.IsNearest c.signedValue where
  le := by simp
  even := by
    intro y d _ tie
    rw [sub_self, abs_zero, eq_comm, abs_eq_zero, sub_eq_zero] at tie
    exact .inl tie.symm

/-- The magnitude that is nearest among those without a largest exponent is nearest among the
numbers, too, with the sign of the exact value.
-/
theorem Nearest.isNearest {v : Rat} {m : Nat} {e : Int} (near : Nearest v m e) (nonneg : 0 ≤ v)
    (negative : Bool)
    : IsNearest ⟨negative, m, e⟩ (withSign negative v) where
  le := by
    intro y c finite
    calc
      |withSign negative v - withSign negative (magnitude m e)| = |v - magnitude m e| :=
        abs_withSign_sub _ _ _
      _ ≤ |v - c.absolute| := near.le _ _ (parts_of_ofFloat? finite).2.1
      _ ≤ |withSign negative v - c.signedValue| :=
        abs_sub_le_abs_withSign_sub _ _ nonneg (magnitude_nonneg _ _)
  even := by
    intro y c finite tie
    have canonical := (parts_of_ofFloat? finite).2.1
    have c_nonneg : 0 ≤ c.absolute := magnitude_nonneg _ _
    change |withSign negative v - withSign negative (magnitude m e)|
      = |withSign negative v - withSign c.negative c.absolute| at tie
    change withSign c.negative c.absolute = withSign negative (magnitude m e) ∨ _
    rw [abs_withSign_sub] at tie
    -- The magnitude of the other number is as near, since signs would only take it away.
    have same : |v - magnitude m e| = |v - c.absolute| :=
      le_antisymm (near.le _ _ canonical)
        (tie ▸ abs_sub_le_abs_withSign_sub negative c.negative nonneg c_nonneg)
    refine (near.even _ _ canonical same).imp_left fun magnitudes => ?_
    change c.absolute = magnitude m e at magnitudes
    rw [← magnitudes]
    by_cases signs : negative = c.negative
    · rw [signs]
    · rw [abs_withSign_sub_of_ne signs nonneg c_nonneg, same] at tie
      have zero : c.absolute = 0 := by
        rcases abs_cases (v - c.absolute) with ⟨distance, _⟩ | ⟨distance, _⟩
        · linarith
        · -- The exact value is zero, and so is what is nearest to it.
          have least := near.le_of_le nearest_zero.canonical (by rw [magnitude_zero]; linarith)
          rw [magnitude_zero] at least
          linarith
      rw [zero, withSign_zero, withSign_zero]

--------------------------------------------------------------------------------
-- The range
--------------------------------------------------------------------------------

theorem canonical_largest
    : Canonical (2 ^ 53 - 1) 971 :=
  ⟨by norm_num, by norm_num, .inr (by norm_num)⟩

theorem magnitude_largest
    : magnitude (2 ^ 53 - 1) 971 = 2 ^ (1024 : Int) - 2 ^ (971 : Int) := by
  have next := magnitude_succ (2 ^ 53 - 1) 971
  rw [show 2 ^ 53 - 1 + 1 = 2 ^ 52 * 2 ^ 1 by norm_num, magnitude_shift,
    show (971 : Int) + (1 : Nat) = 1024 - 52 by norm_num, magnitude_two_pow] at next
  linarith

theorem Canonical.le_largest {m : Nat} {e : Int} (canonical : Canonical m e) (range : e ≤ 971)
    : magnitude m e ≤ magnitude (2 ^ 53 - 1) 971 := by
  rcases range.lt_or_eq with below | rfl
  · exact (canonical.lt_of_exponent_lt canonical_largest below).le
  · have small := canonical.small
    exact (magnitude_le_iff _).mpr (by omega)

/-- The nearest magnitude is beyond the range from halfway between the largest number and the
power of two behind it. In the middle the nearest one is this power, as the largest number is odd.
-/
theorem Nearest.overflows_iff {v : Rat} {m : Nat} {e : Int} (near : Nearest v m e)
    : 971 < e ↔ 2 ^ (1024 : Int) - 2 ^ (970 : Int) ≤ v := by
  have behind := canonical_two_pow (k := 1024) (by norm_num)
  have behind_value := magnitude_two_pow 1024
  have largest_value := magnitude_largest
  have half : (2 : Rat) ^ (971 : Int) = 2 * 2 ^ (970 : Int) := by
    rw [show (971 : Int) = 1 + 970 by norm_num, zpow_add₀ (by norm_num), zpow_one]
  have unit := unit_pos 970
  have above (overflow : 971 < e) : magnitude (2 ^ 52) (1024 - 52) ≤ magnitude m e := by
    rcases (Int.add_one_le_iff.mpr overflow).lt_or_eq with more | same
    · exact (behind.lt_of_exponent_lt near.canonical more).le
    · have full := near.canonical.normal.resolve_left (by omega)
      rw [← same]
      exact (magnitude_le_iff _).mpr full
  have within (range : ¬ 971 < e) := near.canonical.le_largest (not_lt.mp range)
  have from_largest := near.le _ _ canonical_largest
  have from_behind := near.le _ _ behind
  have tie := near.even _ _ behind
  -- The powers of two are too long to be computed with.
  generalize (2 : Rat) ^ (1024 : Int) = top, (2 : Rat) ^ (971 : Int) = gap,
    (2 : Rat) ^ (970 : Int) = step at *
  constructor
  · intro overflow
    have above := above overflow
    rw [behind_value] at above
    rw [largest_value] at from_largest
    by_contra below
    have below := not_le.mp below
    have distance := (neg_le_abs _).trans from_largest
    rcases abs_cases (v - (top - gap)) with ⟨same, _⟩ | ⟨same, _⟩
    · linarith
    · linarith
  · intro large
    by_contra range
    have within := within range
    rw [largest_value] at within
    rw [behind_value] at from_behind tie
    rw [abs_of_pos (by linarith : 0 < v - magnitude m e)] at from_behind tie
    rcases abs_cases (v - top) with ⟨same, _⟩ | ⟨same, _⟩
    · linarith
    · have reached : magnitude m e = magnitude (2 ^ 53 - 1) 971 := by linarith
      obtain ⟨rfl, -⟩ := near.canonical.unique canonical_largest reached
      rcases tie (by linarith) with equal | even
      · linarith
      · norm_num at even

/-- What is stored is an infinity exactly if the magnitude is beyond the range. -/
theorem isInf_store {m : Nat} {e : Int} (negative : Bool) (canonical : Canonical m e)
    : (store negative m e).isInf = decide (971 < e) := by
  by_cases overflow : 971 < e
  · rw [decide_eq_true overflow]
    change (store negative m e).toModel.unpack.isInf = true
    rw [store, unpack_pack _ canonical, if_pos overflow]
    rfl
  · rw [decide_eq_false overflow]
    exact isInf_eq_false (ofFloat?_store negative canonical (not_lt.mp overflow))

--------------------------------------------------------------------------------
-- Signs and sums
--------------------------------------------------------------------------------

theorem isNaN_eq_false {x : Float} {b : Binary} (finite : ofFloat? x = some b)
    : x.isNaN = false := by
  change x.toModel.unpack.isNaN = false
  rw [(parts_of_ofFloat? finite).1, unpacked]
  split <;> rfl

/-- A number that is not zero is below zero exactly if it is negative. -/
theorem lt_zero_iff {x : Float} {b : Binary} (finite : ofFloat? x = some b)
    (nonzero : b.significand ≠ 0)
    : x < 0 ↔ b.negative = true := by
  have models : x < 0 ↔ x.toModel.unpack.lt (.zero .positive) = true := decide_eq_true_iff
  rw [models, (parts_of_ofFloat? finite).1, unpacked_of_ne_zero nonzero]
  cases b.negative with
  | false => exact iff_of_false Bool.noConfusion Bool.noConfusion
  | true => exact iff_of_true rfl rfl

/-- The magnitude of a number in smaller units. -/
theorem magnitude_unitsOf (b : Binary) {e : Int} (le : e ≤ b.exponent)
    : magnitude (b.unitsOf e) e = b.absolute := by
  rw [unitsOf, Nat.shiftLeft_eq, absolute, magnitude_shift_of_le _ le]

/-- The value of a number as a whole multiple of smaller units. -/
theorem apply_unitsOf (b : Binary) {e : Int} (le : e ≤ b.exponent)
    : (((signOf b.negative).apply (b.unitsOf e) : Int) : Rat) * 2 ^ e = b.signedValue := by
  have value := b.magnitude_unitsOf le
  unfold signedValue
  rw [← value]
  cases b.negative with
  | false => simp [signOf, Sign.apply, withSign, magnitude]
  | true => simp [signOf, Sign.apply, withSign, magnitude]

/-- A whole multiple of a unit is rounded to the nearest number with its sign. -/
theorem normalize_eq_store (n e : Int)
    : ∃ m f, Nearest |(n : Rat) * 2 ^ e| m f
        ∧ Float.ofModel (.pack (UnpackedFloat.normalize .binary64 n e .positive))
          = store (decide (n < 0)) m f := by
  have value (negative : Bool) : absolute ⟨negative, n.natAbs, e⟩ = |(n : Rat) * 2 ^ e| := by
    rw [absolute, magnitude, Nat.cast_natAbs, Int.cast_abs, abs_mul, abs_of_pos (unit_pos e)]
  rcases lt_trichotomy n 0 with negative | rfl | positive
  · obtain ⟨m, f, near, stored⟩ := toFloat_eq_store ⟨true, n.natAbs, e⟩
    refine ⟨m, f, value true ▸ near, ?_⟩
    rw [decide_eq_true negative, ← stored, UnpackedFloat.normalize, compare_lt_iff_lt.mpr negative,
      show (-n).toNat = n.natAbs by omega]
    rfl
  · exact ⟨0, -1074, by simpa using nearest_zero, rfl⟩
  · obtain ⟨m, f, near, stored⟩ := toFloat_eq_store ⟨false, n.natAbs, e⟩
    refine ⟨m, f, value false ▸ near, ?_⟩
    rw [decide_eq_false positive.not_gt, ← stored, UnpackedFloat.normalize,
      compare_gt_iff_gt.mpr positive, show n.toNat = n.natAbs by omega]
    rfl

/-- A sum of numbers that are not zero is the nearest number to the exact sum. -/
theorem add_eq_store {x y : Float} {a b : Binary} (left : ofFloat? x = some a)
    (right : ofFloat? y = some b) (a_nonzero : a.significand ≠ 0) (b_nonzero : b.significand ≠ 0)
    : ∃ m e, Nearest |a.signedValue + b.signedValue| m e
        ∧ x + y = store (decide (a.signedValue + b.signedValue < 0)) m e := by
  let e := min a.exponent b.exponent
  let n := (signOf a.negative).apply (a.unitsOf e) + (signOf b.negative).apply (b.unitsOf e)
  have exact_sum : (n : Rat) * 2 ^ e = a.signedValue + b.signedValue := by
    rw [← a.apply_unitsOf (min_le_left _ _ : e ≤ a.exponent),
      ← b.apply_unitsOf (min_le_right _ _ : e ≤ b.exponent), Int.cast_add, add_mul]
  have sum : x + y = .ofModel (.pack (UnpackedFloat.normalize .binary64 n e .positive)) := by
    have model
        : x + y
          = .ofModel (.pack (UnpackedFloat.add .binary64 x.toModel.unpack y.toModel.unpack)) :=
      rfl
    rw [model, (parts_of_ofFloat? left).1, (parts_of_ofFloat? right).1,
      unpacked_of_ne_zero a_nonzero, unpacked_of_ne_zero b_nonzero]
    rfl
  obtain ⟨m, f, near, stored⟩ := normalize_eq_store n e
  rw [exact_sum] at near
  refine ⟨m, f, near, ?_⟩
  rw [sum, stored, ← exact_sum]
  congr 1
  rw [decide_eq_decide, ← not_le, ← not_le, mul_nonneg_iff_of_pos_right (unit_pos e),
    Int.cast_nonneg_iff]

end Calculator.Binary
