import Calculator.Proofs.Binary.Packing

/-! The operations on numbers by their exact values: products and quotients are the nearest
numbers to the exact ones, and numbers compare as their magnitudes do.
-/

namespace Calculator.Binary

open Float.Model Float.Model.UnpackedFloat

/-- The absolute value. -/
def absolute (b : Binary) : Rat :=
  magnitude b.significand b.exponent

/-- The sign of a number. -/
def signOf (negative : Bool) : Sign :=
  if negative then .negative else .positive

/-- The number of a sign and a canonical magnitude, infinite if that is beyond the range. -/
def store (negative : Bool) (m : Nat) (e : Int) : Float :=
  .ofModel (.pack (unpacked (signOf negative) m e))

/-- The parts of a number are those it unpacks to. -/
theorem ofFloat?_of_unpack {x : Float} {sign : Sign} {m : Nat} {e : Int}
    (parts : x.toModel.unpack = unpacked sign m e) (canonical : Canonical m e)
    : ofFloat? x = some { negative := sign == .negative, significand := m, exponent := e } := by
  unfold ofFloat?
  rw [parts]
  by_cases zero : m = 0
  · subst zero
    have smallest : e = -1074 := canonical.normal.resolve_right (by norm_num)
    rw [smallest]
    rfl
  · simp [unpacked, zero]

theorem ofFloat?_of_infinity {x : Float} {sign : Sign}
    (infinite : x.toModel.unpack = .infinity sign)
    : ofFloat? x = none := by
  unfold ofFloat?
  rw [infinite]

theorem ofFloat?_of_nan {x : Float} (nan : x.toModel.unpack = .notANumber)
    : ofFloat? x = none := by
  unfold ofFloat?
  rw [nan]

/-- The parts of a finite number. -/
theorem parts_of_ofFloat? {x : Float} {b : Binary} (finite : ofFloat? x = some b)
    : x.toModel.unpack = unpacked (signOf b.negative) b.significand b.exponent
      ∧ Canonical b.significand b.exponent ∧ b.exponent ≤ 971 := by
  rcases exists_unpacked x.toModel with ⟨sign, m, e, canonical, range, parts⟩ | special | special
  · rw [ofFloat?_of_unpack parts canonical, Option.some.injEq] at finite
    subst finite
    have same : signOf (sign == .negative) = sign := by cases sign <;> rfl
    exact ⟨by rw [same, parts], canonical, range⟩
  · obtain ⟨sign, infinite⟩ := special
    rw [ofFloat?_of_infinity infinite] at finite
    cases finite
  · rw [ofFloat?_of_nan special] at finite
    cases finite

/-- A number that was taken apart is stored as itself. -/
theorem store_of_ofFloat? {x : Float} {b : Binary} (finite : ofFloat? x = some b)
    : store b.negative b.significand b.exponent = x := by
  obtain ⟨parts, canonical, -⟩ := parts_of_ofFloat? finite
  rw [store, pack_of_unpack canonical parts]

theorem isFinite_eq (x : Float)
    : x.isFinite = (ofFloat? x).isSome := by
  change x.toModel.unpack.isFinite = _
  unfold ofFloat?
  cases x.toModel.unpack <;> rfl

theorem isInf_eq_false {x : Float} {b : Binary} (finite : ofFloat? x = some b)
    : x.isInf = false := by
  change x.toModel.unpack.isInf = false
  rw [(parts_of_ofFloat? finite).1, unpacked]
  split <;> rfl

/-- What is stored within the range has the parts that were stored. -/
theorem ofFloat?_store {m : Nat} {e : Int} (negative : Bool) (canonical : Canonical m e)
    (range : e ≤ 971)
    : ofFloat? (store negative m e) = some { negative, significand := m, exponent := e } := by
  have parts : (store negative m e).toModel.unpack = unpacked (signOf negative) m e := by
    rw [store, unpack_pack _ canonical, if_neg (by omega)]
  rw [ofFloat?_of_unpack parts canonical]
  cases negative <;> rfl

theorem ofFloat?_store_of_overflow {m : Nat} {e : Int} (negative : Bool)
    (canonical : Canonical m e) (overflow : 971 < e)
    : ofFloat? (store negative m e) = none := by
  have infinite : (store negative m e).toModel.unpack = .infinity (signOf negative) := by
    rw [store, unpack_pack _ canonical, if_pos overflow]
  exact ofFloat?_of_infinity infinite

theorem magnitude_zero (e : Int)
    : magnitude 0 e = 0 := by
  rw [magnitude, Nat.cast_zero, zero_mul]

theorem absolute_eq_zero {b : Binary} (zero : b.significand = 0)
    : b.absolute = 0 := by
  rw [absolute, zero, magnitude_zero]

theorem absolute_pos {b : Binary} (nonzero : b.significand ≠ 0)
    : 0 < b.absolute :=
  mul_pos (by exact_mod_cast Nat.pos_of_ne_zero nonzero) (unit_pos _)

theorem nearest_zero
    : Nearest 0 0 (-1074) := by
  have canonical : Canonical 0 (-1074) := ⟨by norm_num, le_rfl, .inl rfl⟩
  rw [← magnitude_zero (-1074)]
  exact canonical.nearest

theorem unpacked_of_ne_zero {sign : Sign} {m : Nat} {e : Int} (nonzero : m ≠ 0)
    : unpacked sign m e = .finite sign m e (Nat.pos_of_ne_zero nonzero) :=
  dif_neg nonzero

theorem signOf_mul (a b : Bool)
    : signOf a * signOf b = signOf (a != b) := by
  cases a <;> cases b <;> rfl

theorem signOf_div (a b : Bool)
    : signOf a / signOf b = signOf (a != b) := by
  cases a <;> cases b <;> rfl

--------------------------------------------------------------------------------
-- Rounding a whole number of units
--------------------------------------------------------------------------------

theorem log2_shift {m : Nat} (nonzero : m ≠ 0) (s : Nat)
    : (m * 2 ^ s).log2 = m.log2 + s := by
  induction s with
  | zero => rw [pow_zero, mul_one, add_zero]
  | succ s ih =>
      have shifted : m * 2 ^ s ≠ 0 := mul_ne_zero nonzero (pow_ne_zero s (by norm_num))
      rw [pow_succ, ← mul_assoc, mul_comm, Nat.log2_two_mul shifted, ih, add_assoc]

/-- The exponent that a number is rounded to does not depend on its form. -/
theorem target_shift {m : Nat} (nonzero : m ≠ 0) (s : Nat) (e : Int)
    : target (m * 2 ^ s) (e - s) = target m e := by
  unfold target
  rw [log2_shift nonzero]
  push_cast
  congr 1
  ring

/-- Rounding zero gives zero. Witness: a shift keeps a mantissa of zero. -/
theorem roundWithAccuracy_zero (sign : Sign) (e : Int)
    : roundWithAccuracy .binary64 sign 0 e .exact = .zero sign := by
  have none (k : Nat) : (⟨0, false, false⟩ : ExtendedMantissa) >>> k = ⟨0, false, false⟩ := by
    induction k with
    | zero => rfl
    | succ k ih =>
        change ((⟨0, false, false⟩ : ExtendedMantissa) >>> k).shiftRightOne = _
        rw [ih]
        rfl
  have shifted (e : Int)
      : (shiftToTargetExponent .binary64 0 e .exact).1 = ⟨0, false, false⟩ :=
    none _
  unfold roundWithAccuracy
  simp only [shifted]
  exact dif_pos (congrArg ExtendedMantissa.mantissa (shifted _))

/-- Putting a number together rounds its exact value. -/
theorem toFloat_eq_store (b : Binary)
    : ∃ m e, Nearest b.absolute m e ∧ b.toFloat = store b.negative m e := by
  let shift := (b.exponent - target b.significand b.exponent).toNat
  have rounds
      : b.toFloat
        = .ofModel (.pack (roundWithAccuracy .binary64 (signOf b.negative)
            (b.significand <<< shift) (b.exponent - shift) .exact)) := by
    unfold toFloat UnpackedFloat.round
    rw [targetExponent_eq]
    rfl
  rw [rounds, Nat.shiftLeft_eq]
  -- No shift gives a zero more digits, so a zero is not a case of `roundWithAccuracy_nearest`.
  by_cases zero : b.significand = 0
  · refine ⟨0, -1074, ?_, ?_⟩
    · rw [absolute_eq_zero zero]
      exact nearest_zero
    · rw [zero, zero_mul, roundWithAccuracy_zero]
      rfl
  · have located
        : Locates (b.significand * 2 ^ shift) (b.absolute / 2 ^ (b.exponent - shift)) .exact := by
      have shifted := magnitude_shift b.significand shift (b.exponent - shift)
      rw [sub_add_cancel] at shifted
      rw [absolute, ← shifted]
      exact magnitude_div_unit _ _
    have fits : b.exponent - shift ≤ target (b.significand * 2 ^ shift) (b.exponent - shift) := by
      rw [target_shift zero]
      omega
    obtain ⟨m, e, nearest, rounded⟩ :=
      roundWithAccuracy_nearest located fits (signOf b.negative)
    exact ⟨m, e, nearest, by rw [rounded]; rfl⟩

--------------------------------------------------------------------------------
-- Products
--------------------------------------------------------------------------------

/-- The product of two significands is not too short, unless its units are the least ones. -/
theorem fits_mul {m n : Nat} {e f : Int} (a : Canonical m e) (b : Canonical n f)
    (left : m ≠ 0) (right : n ≠ 0)
    : e + f ≤ target (m * n) (e + f) := by
  by_cases smallest : e + f ≤ -1074
  · exact smallest.trans (le_max_right _ _)
  · have long : 2 ^ 52 ≤ m * n := by
      rcases a.normal with least | normal
      · rcases b.normal with least | normal
        · omega
        · exact normal.trans (Nat.le_mul_of_pos_left n (Nat.pos_of_ne_zero left))
      · exact normal.trans (Nat.le_mul_of_pos_right m (Nat.pos_of_ne_zero right))
    have digits := (Nat.le_log2 (mul_ne_zero left right)).mpr long
    refine le_trans ?_ (le_max_left _ _)
    omega

/-- The product of two magnitudes that are not zero is rounded to the nearest magnitude, if it is
not too short.
-/
theorem mul_nearest {m n : Nat} {e f : Int} (left : 0 < m) (right : 0 < n)
    (fits : e + f ≤ target (m * n) (e + f)) (a b : Sign)
    : ∃ k g, Nearest (magnitude m e * magnitude n f) k g
        ∧ UnpackedFloat.mul .binary64 (.finite a m e left) (.finite b n f right)
          = unpacked (a * b) k g := by
  have located : Locates (m * n) (magnitude m e * magnitude n f / 2 ^ (e + f)) .exact := by
    rw [magnitude_mul]
    exact magnitude_div_unit _ _
  obtain ⟨k, g, nearest, rounded⟩ := roundWithAccuracy_nearest located fits (a * b)
  exact ⟨k, g, nearest, rounded⟩

/-- A product of numbers is the nearest number to the exact product. -/
theorem mul_eq_store {x y : Float} {a b : Binary} (left : ofFloat? x = some a)
    (right : ofFloat? y = some b)
    : ∃ m e, Nearest (a.absolute * b.absolute) m e
        ∧ x * y = store (a.negative != b.negative) m e := by
  obtain ⟨x_parts, a_canonical, -⟩ := parts_of_ofFloat? left
  obtain ⟨y_parts, b_canonical, -⟩ := parts_of_ofFloat? right
  have product
      : x * y
        = .ofModel (.pack (UnpackedFloat.mul .binary64
            (unpacked (signOf a.negative) a.significand a.exponent)
            (unpacked (signOf b.negative) b.significand b.exponent))) := by
    rw [← x_parts, ← y_parts]
    rfl
  simp only [product, store, ← signOf_mul]
  -- Only what is not zero is rounded; a factor of zero leaves its sign to the product.
  by_cases a_zero : a.significand = 0
  · refine ⟨0, -1074, by rw [absolute_eq_zero a_zero, zero_mul]; exact nearest_zero, ?_⟩
    rw [a_zero]
    by_cases b_zero : b.significand = 0
    · rw [b_zero]
      rfl
    · rw [unpacked_of_ne_zero b_zero]
      rfl
  · by_cases b_zero : b.significand = 0
    · refine ⟨0, -1074, by rw [absolute_eq_zero b_zero, mul_zero]; exact nearest_zero, ?_⟩
      rw [b_zero, unpacked_of_ne_zero a_zero]
      rfl
    · obtain ⟨m, e, nearest, rounded⟩ :=
        mul_nearest (Nat.pos_of_ne_zero a_zero) (Nat.pos_of_ne_zero b_zero)
          (fits_mul a_canonical b_canonical a_zero b_zero) (signOf a.negative)
          (signOf b.negative)
      refine ⟨m, e, nearest, ?_⟩
      rw [unpacked_of_ne_zero a_zero, unpacked_of_ne_zero b_zero, rounded]

--------------------------------------------------------------------------------
-- Quotients
--------------------------------------------------------------------------------

/-- The accuracy of a quotient of whole numbers tells where the exact one is. -/
theorem locates_fraction (m : Nat) {d : Nat} (positive : 0 < d)
    : Locates (m / d) (m / d : Rat) (accuracyOfFraction (m % d) d) := by
  have divisor : (0 : Rat) < d := by exact_mod_cast positive
  have digits : (m : Rat) / d = (m / d : Nat) + ((m % d : Nat) : Rat) / d := by
    have whole : (m : Rat) = d * (m / d : Nat) + (m % d : Nat) := by
      exact_mod_cast (Nat.div_add_mod m d).symm
    rw [div_eq_iff divisor.ne', add_mul, div_mul_cancel₀ _ divisor.ne']
    linarith
  have below : ((m % d : Nat) : Rat) < d := by exact_mod_cast Nat.mod_lt m positive
  rw [digits]
  unfold accuracyOfFraction
  by_cases none : m % d = 0
  · rw [if_pos none, none]
    simp [Locates]
  · rw [if_neg none]
    have some : (0 : Rat) < (m % d : Nat) := by exact_mod_cast Nat.pos_of_ne_zero none
    rcases lt_trichotomy (2 * (m % d)) d with less | half | more
    · have bound : 2 * ((m % d : Nat) : Rat) < d := by exact_mod_cast less
      rw [compare_lt_iff_lt.mpr less]
      refine ⟨lt_add_of_pos_right _ (div_pos some divisor), ?_⟩
      rw [add_lt_add_iff_left, div_lt_div_iff₀ divisor (by norm_num)]
      linarith
    · have bound : 2 * ((m % d : Nat) : Rat) = d := by exact_mod_cast half
      rw [compare_eq_iff_eq.mpr half]
      change _ = _
      rw [add_right_inj, div_eq_div_iff divisor.ne' (by norm_num)]
      linarith
    · have bound : (d : Rat) < 2 * (m % d : Nat) := by exact_mod_cast more
      rw [compare_gt_iff_gt.mpr more]
      constructor
      · rw [add_lt_add_iff_left, div_lt_div_iff₀ (by norm_num) divisor]
        linarith
      · rw [add_lt_add_iff_left, div_lt_one divisor]
        exact below

/-- The exponent at which the quotient of two significands has enough digits. -/
def quotientExponent (m : Nat) (e : Int) (n : Nat) (f : Int) : Int :=
  min (e - f) (max (m.log2 + 1 + e - (n.log2 + 1 + f) - 53) (-1074))

theorem divCore_eq (m : Nat) (e : Int) (n : Nat) (f : Int)
    : let t := quotientExponent m e n f
      let shifted := m * 2 ^ (e - f - t).toNat
      divCore .binary64 m e n f = (shifted / n, t, accuracyOfFraction (shifted % n) n) := by
  simp only [divCore, ← Nat.shiftLeft_eq]
  rfl

/-- The dividend is shifted so far that the quotient is not too short, unless its units are the
least ones.
-/
theorem fits_div {m n : Nat} {e f : Int} (left : m ≠ 0) (right : n ≠ 0)
    : let t := quotientExponent m e n f
      t ≤ target (m * 2 ^ (e - f - t).toNat / n) t := by
  intro t
  set s := (e - f - t).toNat with shift
  have exponent : t ≤ e - f := min_le_left _ _
  by_cases smallest : t ≤ -1074
  · exact smallest.trans (le_max_right _ _)
  · have digits : t ≤ m.log2 + 1 + e - (n.log2 + 1 + f) - 53 := by
      rcases le_max_iff.mp (min_le_right _ _ : t ≤ max _ _) with le | le
      · exact le
      · exact absurd le smallest
    have long : 2 ^ 52 ≤ m * 2 ^ s / n := by
      rw [Nat.le_div_iff_mul_le (Nat.pos_of_ne_zero right)]
      calc
        2 ^ 52 * n ≤ 2 ^ 52 * 2 ^ (n.log2 + 1) := Nat.mul_le_mul_left _ Nat.lt_log2_self.le
        _ = 2 ^ (n.log2 + 53) := by rw [← pow_add]; congr 1; omega
        _ ≤ 2 ^ (m.log2 + s) := Nat.pow_le_pow_right (by norm_num) (by omega)
        _ = 2 ^ m.log2 * 2 ^ s := pow_add _ _ _
        _ ≤ m * 2 ^ s := Nat.mul_le_mul_right _ (Nat.log2_self_le left)
    have log := (Nat.le_log2 (by omega)).mpr long
    refine le_trans ?_ (le_max_left _ _)
    omega

/-- The exact quotient of two magnitudes in units that the dividend is shifted to. -/
theorem magnitude_div {m n s : Nat} {e f t : Int} (nonzero : n ≠ 0) (units : t + s = e - f)
    : magnitude m e / magnitude n f / 2 ^ t = ((m * 2 ^ s : Nat) : Rat) / n := by
  have divisor : (n : Rat) ≠ 0 := by exact_mod_cast nonzero
  have powers := zpow_add₀ (by norm_num : (2 : Rat) ≠ 0) t s
  rw [units, zpow_sub₀ (by norm_num), zpow_natCast, div_eq_iff (unit_pos f).ne'] at powers
  rw [div_div, magnitude, magnitude, powers, div_eq_div_iff
    (mul_ne_zero (mul_ne_zero divisor (unit_pos f).ne') (unit_pos t).ne') divisor]
  push_cast
  ring

/-- The quotient of two magnitudes that are not zero is rounded to the nearest magnitude. -/
theorem div_nearest {m n : Nat} (e f : Int) (left : 0 < m) (right : 0 < n) (a b : Sign)
    : ∃ k g, Nearest (magnitude m e / magnitude n f) k g
        ∧ UnpackedFloat.div .binary64 (.finite a m e left) (.finite b n f right)
          = unpacked (a / b) k g := by
  let t := quotientExponent m e n f
  let s := (e - f - t).toNat
  have exponent : t + s = e - f := by
    have : t ≤ e - f := min_le_left _ _
    omega
  have located := locates_fraction (m * 2 ^ s) right
  rw [← magnitude_div right.ne' exponent] at located
  obtain ⟨k, g, nearest, rounded⟩ :=
    roundWithAccuracy_nearest located (fits_div left.ne' right.ne') (a / b)
  refine ⟨k, g, nearest, ?_⟩
  rw [← rounded]
  simp only [UnpackedFloat.div, divCore_eq]
  rfl

/-- A quotient of numbers is the nearest number to the exact quotient. -/
theorem div_eq_store {x y : Float} {a b : Binary} (left : ofFloat? x = some a)
    (right : ofFloat? y = some b) (nonzero : b.significand ≠ 0)
    : ∃ m e, Nearest (a.absolute / b.absolute) m e
        ∧ x / y = store (a.negative != b.negative) m e := by
  obtain ⟨x_parts, -, -⟩ := parts_of_ofFloat? left
  obtain ⟨y_parts, -, -⟩ := parts_of_ofFloat? right
  have quotient
      : x / y
        = .ofModel (.pack (UnpackedFloat.div .binary64
            (unpacked (signOf a.negative) a.significand a.exponent)
            (unpacked (signOf b.negative) b.significand b.exponent))) := by
    rw [← x_parts, ← y_parts]
    rfl
  simp only [quotient, store, ← signOf_div]
  rw [unpacked_of_ne_zero nonzero]
  by_cases zero : a.significand = 0
  · refine ⟨0, -1074, by rw [absolute_eq_zero zero, zero_div]; exact nearest_zero, ?_⟩
    rw [zero]
    rfl
  · obtain ⟨m, e, nearest, rounded⟩ := div_nearest a.exponent b.exponent
      (Nat.pos_of_ne_zero zero) (Nat.pos_of_ne_zero nonzero) (signOf a.negative)
      (signOf b.negative)
    exact ⟨m, e, nearest, by rw [unpacked_of_ne_zero zero, rounded]⟩

--------------------------------------------------------------------------------
-- Comparisons
--------------------------------------------------------------------------------

/-- The absolute value of a finite number has the same parts without the sign. -/
theorem abs_eq_store {x : Float} {b : Binary} (finite : ofFloat? x = some b)
    : x.abs = store false b.significand b.exponent := by
  have parts := (parts_of_ofFloat? finite).1
  change Float.ofModel (.pack x.toModel.unpack.abs) = _
  rw [parts]
  by_cases zero : b.significand = 0
  · rw [zero]
    rfl
  · rw [unpacked_of_ne_zero zero, store, unpacked_of_ne_zero zero]
    rfl

/-- Canonical magnitudes compare as their exponents do, and then as their significands do. -/
theorem Canonical.compare_eq_lt_iff {m n : Nat} {e f : Int} (a : Canonical m e)
    (b : Canonical n f)
    : (compare e f).then (compare m n) = .lt ↔ magnitude m e < magnitude n f := by
  rcases lt_trichotomy e f with below | same | above
  · rw [compare_lt_iff_lt.mpr below]
    exact iff_of_true rfl (a.lt_of_exponent_lt b below)
  · subst same
    rw [compare_eq_iff_eq.mpr rfl, magnitude_lt_iff]
    exact compare_lt_iff_lt
  · rw [compare_gt_iff_gt.mpr above]
    exact iff_of_false Ordering.noConfusion (b.lt_of_exponent_lt a above).not_gt

/-- Positive numbers compare as their magnitudes do. -/
theorem lt_iff_of_positive {x y : Float} {a b : Binary} (left : ofFloat? x = some a)
    (right : ofFloat? y = some b) (a_positive : a.negative = false)
    (b_positive : b.negative = false)
    : x < y ↔ a.absolute < b.absolute := by
  obtain ⟨x_parts, a_canonical, -⟩ := parts_of_ofFloat? left
  obtain ⟨y_parts, b_canonical, -⟩ := parts_of_ofFloat? right
  have compares
      : x < y ↔ UnpackedFloat.lt (unpacked .positive a.significand a.exponent)
          (unpacked .positive b.significand b.exponent) = true := by
    have models : x < y ↔ x.toModel.unpack.lt y.toModel.unpack = true := decide_eq_true_iff
    rw [models, x_parts, y_parts, a_positive, b_positive]
    rfl
  rw [compares]
  by_cases b_zero : b.significand = 0
  · have least : ¬ a.absolute < b.absolute := by
      rw [absolute_eq_zero b_zero]
      exact (magnitude_nonneg _ _).not_gt
    rw [b_zero]
    by_cases a_zero : a.significand = 0
    · rw [a_zero]
      exact iff_of_false Bool.noConfusion least
    · rw [unpacked_of_ne_zero a_zero]
      exact iff_of_false (by simp [unpacked, UnpackedFloat.lt, UnpackedFloat.compare]) least
  · by_cases a_zero : a.significand = 0
    · rw [a_zero, unpacked_of_ne_zero b_zero, absolute_eq_zero a_zero]
      exact iff_of_true rfl (absolute_pos b_zero)
    · rw [unpacked_of_ne_zero a_zero, unpacked_of_ne_zero b_zero]
      refine Iff.trans ?_ (a_canonical.compare_eq_lt_iff b_canonical)
      simp [UnpackedFloat.lt, UnpackedFloat.compare]

/-- Of the numbers, only the zeros are equal to zero. -/
theorem beq_zero_iff {x : Float} {b : Binary} (finite : ofFloat? x = some b)
    : (x == 0) = true ↔ b.significand = 0 := by
  have parts := (parts_of_ofFloat? finite).1
  have compares : (x == 0) = x.toModel.unpack.beq (.zero .positive) := rfl
  rw [compares, parts]
  by_cases zero : b.significand = 0
  · rw [zero]
    exact iff_of_true rfl rfl
  · rw [unpacked_of_ne_zero zero]
    refine iff_of_false ?_ zero
    cases b.negative <;> exact Bool.noConfusion

/-- A number without parts is an infinity or a NaN. -/
theorem unpack_of_none {x : Float} (special : ofFloat? x = none)
    : (∃ sign, x.toModel.unpack = .infinity sign) ∨ x.toModel.unpack = .notANumber := by
  rcases exists_unpacked x.toModel with ⟨sign, m, e, canonical, _, parts⟩ | infinite | nan
  · rw [ofFloat?_of_unpack parts canonical] at special
    cases special
  · exact .inl infinite
  · exact .inr nan

/-- Neither an infinity nor a NaN equals zero. -/
theorem beq_zero_of_none {x : Float} (special : ofFloat? x = none)
    : (x == 0) = false := by
  have compares : (x == 0) = x.toModel.unpack.beq (.zero .positive) := rfl
  rw [compares]
  rcases unpack_of_none special with ⟨sign, infinite⟩ | nan
  · rw [infinite]
    cases sign <;> rfl
  · rw [nan]
    rfl

theorem unpack_pack_infinity (sign : Sign)
    : (Float.Model.pack (.infinity sign)).unpack = .infinity sign := by
  cases sign <;> rfl

theorem unpack_pack_nan
    : (Float.Model.pack .notANumber).unpack = .notANumber :=
  rfl

/-- A product with an infinity or with no number is not finite either. -/
theorem mul_of_none {x : Float} (y : Float) (special : ofFloat? x = none)
    : ofFloat? (x * y) = none := by
  have product
      : x * y
        = .ofModel (.pack (UnpackedFloat.mul .binary64 x.toModel.unpack y.toModel.unpack)) :=
    rfl
  have infinity (sign : Sign) : ofFloat? (.ofModel (.pack (.infinity sign))) = none :=
    ofFloat?_of_infinity (unpack_pack_infinity sign)
  have nan : ofFloat? (.ofModel (.pack .notANumber)) = none :=
    ofFloat?_of_nan unpack_pack_nan
  rw [product]
  rcases unpack_of_none special with ⟨sign, parts⟩ | parts
  · rw [parts]
    cases y.toModel.unpack with
    | zero other => exact nan
    | finite other m e positive => exact infinity _
    | infinity other => exact infinity _
    | notANumber => exact nan
  · rw [parts]
    exact nan

end Calculator.Binary
