import Calculator.Proofs.Binary.Halfway
import Calculator.Proofs.Decimal.ScaledPower

/-! The safe interval of a number. Scaling moves its ends by less than one unit each, and they are
drawn in by one unit each, so whatever lies between them has the number for its nearest one. The
interval is wide enough for 17 digits, and all its parts are words of 64 bits.
-/

namespace Calculator

open Binary

--------------------------------------------------------------------------------
-- The power of ten
--------------------------------------------------------------------------------

namespace ScaledPower

/-- The least exponent of an upper end that is scaled by `10 ^ k`. -/
def leastExponent (k : Int) : Int :=
  -(k * 100000 / 30103) - 61

/-- The greatest exponent of an upper end that is scaled by `10 ^ k`. -/
def greatestExponent (k : Int) : Int :=
  ((8 - k) * 100000 - 1) / 30103 - 61

/-- The rounded power has 64 bits, and an upper end that is scaled by it has between 34 and 60 bits
in its fraction and no more than nine digits before it.
-/
structure Suits (p : ScaledPower) (k : Int) : Prop where
  long : 2 ^ 63 ≤ p.significand
  short : p.significand < 2 ^ 64
  coarse : 34 ≤ -(greatestExponent k + p.exponent + 64)
  fine : -(leastExponent k + p.exponent + 64) ≤ 60
  whole : p.significand < 10 ^ 9 * 2 ^ (-(greatestExponent k + p.exponent + 64)).toNat

instance (p : ScaledPower) (k : Int) : Decidable (p.Suits k) :=
  decidable_of_iff
    (2 ^ 63 ≤ p.significand ∧ p.significand < 2 ^ 64
      ∧ 34 ≤ -(greatestExponent k + p.exponent + 64) ∧ -(leastExponent k + p.exponent + 64) ≤ 60
      ∧ p.significand < 10 ^ 9 * 2 ^ (-(greatestExponent k + p.exponent + 64)).toNat)
    ⟨fun ⟨long, short, coarse, fine, whole⟩ => ⟨long, short, coarse, fine, whole⟩,
      fun ⟨long, short, coarse, fine, whole⟩ => ⟨long, short, coarse, fine, whole⟩⟩

/-- The exact power with a significand of 64 bits is a fraction of `2 ^ 64`. -/
theorem Suits.ratio_bounds {k : Int} (suits : (ofExponent k).Suits k)
    : 49 / 100 ≤ ratio k / 2 ^ 64 ∧ ratio k / 2 ^ 64 < 1 := by
  have close := abs_le.mp (abs_significand_sub_ratio_le k)
  have long : (2 : Rat) ^ 63 ≤ (ofExponent k).significand := by exact_mod_cast suits.long
  have short : ((ofExponent k).significand : Rat) + 1 ≤ 2 ^ 64 := by exact_mod_cast suits.short
  rw [le_div_iff₀ (by norm_num), div_lt_one₀ (by norm_num)]
  constructor <;> linarith

/-- The powers that numbers are scaled by. Witness: a look at each of them. -/
theorem suits_ofExponent
    : ∀ j : Nat, j < 84 → (ofExponent (8 * j - 340)).Suits (8 * j - 340) := by
  decide +kernel

end ScaledPower

namespace SafeInterval

open ScaledPower

theorem exponent_of_scaling (e : Int)
    : leastExponent (scaling e) ≤ e ∧ e ≤ greatestExponent (scaling e) := by
  unfold leastExponent greatestExponent scaling
  omega

/-- The power for each exponent that occurs suits it. -/
theorem suits_scaling {e : Int} (least : -1137 ≤ e) (greatest : e ≤ 960)
    : (ofExponent (scaling e)).Suits (scaling e) := by
  obtain ⟨j, small, same⟩ : ∃ j : Nat, j < 84 ∧ scaling e = 8 * j - 340 := by
    unfold scaling
    exact ⟨((347 - (e + 61) * 30103 / 100000) / 8).toNat, by omega, by omega⟩
  rw [same]
  exact suits_ofExponent j small

--------------------------------------------------------------------------------
-- The ends in full length
--------------------------------------------------------------------------------

/-- How many bits the upper end of a significand has to spare. -/
def spare (m : Nat) : Nat :=
  63 - (2 * m + 1).log2

/-- The upper end with all its 64 bits. -/
def upperEnd (m : Nat) : Nat :=
  (2 * m + 1) * 2 ^ spare m

/-- The number in the units of its upper end. -/
def fullLength (m : Nat) : Nat :=
  2 * m * 2 ^ spare m

/-- The lower end in the units of the upper one. -/
def lowerEnd (m : Nat) : Nat :=
  lowerQuarters m * 2 ^ (spare m - 1)

/-- The exponent of the units. -/
def endExponent (m : Nat) (e : Int) : Int :=
  e - 1 - spare m

section Ends

variable {m : Nat} {e : Int}

/-- At least ten bits of a word are spare. Shifted by them, the upper end fills the word. -/
theorem spare_bounds (small : m < 2 ^ 53)
    : 10 ≤ spare m ∧ 2 ^ 63 ≤ upperEnd m ∧ upperEnd m < 2 ^ 64 := by
  have digits : (2 * m + 1).log2 ≤ 53 := by
    have := (Nat.log2_lt (by omega)).mpr (by omega : 2 * m + 1 < 2 ^ 54)
    omega
  have low := Nat.log2_self_le (by omega : 2 * m + 1 ≠ 0)
  have high : 2 * m + 1 < 2 ^ ((2 * m + 1).log2 + 1) := Nat.lt_log2_self
  unfold upperEnd spare
  refine ⟨by omega, ?_, ?_⟩
  · calc
      2 ^ 63 = 2 ^ (2 * m + 1).log2 * 2 ^ (63 - (2 * m + 1).log2) := by
        rw [← pow_add, Nat.add_sub_cancel' (by omega)]
      _ ≤ (2 * m + 1) * 2 ^ (63 - (2 * m + 1).log2) := Nat.mul_le_mul_right _ low
  · calc
      (2 * m + 1) * 2 ^ (63 - (2 * m + 1).log2)
          < 2 ^ ((2 * m + 1).log2 + 1) * 2 ^ (63 - (2 * m + 1).log2) :=
        Nat.mul_lt_mul_of_pos_right high (Nat.two_pow_pos _)
      _ = 2 ^ 64 := by
        rw [← pow_add]
        congr 1
        omega

/-- The upper end lies half a gap above the number. -/
theorem magnitude_upperEnd (m : Nat) (e : Int)
    : magnitude (upperEnd m) (endExponent m e) = magnitude (4 * m + 2) (e - 2) := by
  rw [upperEnd, magnitude_shift, endExponent, sub_add_cancel,
    show 4 * m + 2 = (2 * m + 1) * 2 ^ 1 by ring, magnitude_shift]
  congr 1
  push_cast
  ring

theorem magnitude_lowerEnd (small : m < 2 ^ 53)
    : magnitude (lowerEnd m) (endExponent m e) = magnitude (lowerQuarters m) (e - 2) := by
  have := (spare_bounds small).1
  rw [lowerEnd, magnitude_shift, endExponent]
  congr 1
  omega

/-- The number is well inside its ends. -/
theorem ends_apart (small : m < 2 ^ 53) (positive : 0 < m)
    : 0 < lowerEnd m ∧ lowerEnd m + 512 ≤ fullLength m ∧ fullLength m + 1024 ≤ upperEnd m
      ∧ upperEnd m ≤ 10 ^ 16 * (upperEnd m - lowerEnd m - 9) := by
  obtain ⟨long, -, -⟩ := spare_bounds small
  obtain ⟨k, spare_eq⟩ : ∃ k, spare m = k + 10 := ⟨spare m - 10, by omega⟩
  have unit := Nat.two_pow_pos k
  have shifted : 2 ^ (k + 10) = 1024 * 2 ^ k := by ring
  have halved : 2 ^ (k + 10 - 1) = 512 * 2 ^ k := by
    rw [Nat.add_sub_assoc (by norm_num)]
    ring
  have product := Nat.mul_le_mul_right (2 ^ k) (by omega : m ≤ 2 ^ 53)
  have least := Nat.mul_le_mul_right (2 ^ k) (by omega : 1 ≤ m)
  unfold lowerEnd fullLength upperEnd lowerQuarters
  rw [spare_eq, shifted, halved]
  generalize 2 ^ k = u at *
  have double : (2 * m + 1) * (1024 * u) = 2048 * (m * u) + 1024 * u := by ring
  have middle : 2 * m * (1024 * u) = 2048 * (m * u) := by ring
  rw [double, middle]
  split
  · rename_i power
    subst power
    omega
  · have lower : (4 * m - 2) * (512 * u) = 2048 * (m * u) - 1024 * u := by
      rw [Nat.sub_mul]
      congr 1 <;> ring
    rw [lower]
    omega

end Ends

/-- The power of ten that a number is scaled by. -/
def power (b : Binary) : ScaledPower :=
  ofExponent (scaling (endExponent b.significand b.exponent))

/-- The parts of the interval by its ends in full length. -/
theorem ofBinary_eq {b : Binary} (small : b.significand < 2 ^ 53)
    : ofBinary b
      = let e := endExponent b.significand b.exponent
        let top := (power b).scale (upperEnd b.significand) - 1
        {
          top,
          width := top - ((power b).scale (lowerEnd b.significand) + 1),
          depth := top - (power b).scale (fullLength b.significand),
          fractionBits := (-(e + (power b).exponent + 64)).toNat,
          exponent := -scaling e
        } := by
  have long := (spare_bounds small).1
  have lower
      : (if b.significand = 2 ^ 52 then (4 * b.significand - 1) * 2 ^ (spare b.significand - 1)
          else (2 * b.significand - 1) * 2 ^ spare b.significand)
        = lowerEnd b.significand := by
    unfold lowerEnd lowerQuarters
    split
    · rfl
    · obtain ⟨k, spare_eq⟩ := Nat.exists_eq_add_of_le' (by omega : 1 ≤ spare b.significand)
      rw [spare_eq, Nat.add_sub_cancel, pow_succ', ← mul_assoc, Nat.sub_mul]
      congr 2
      ring
  rw [← lower]
  simp only [ofBinary, Nat.shiftLeft_eq, Nat.pow_eq, power, endExponent, upperEnd,
    fullLength, spare]

--------------------------------------------------------------------------------
-- The interval
--------------------------------------------------------------------------------

/-- What one of the units is worth. -/
def unit (i : SafeInterval) : Rat :=
  10 ^ i.exponent / 2 ^ i.fractionBits

theorem unit_pos (i : SafeInterval)
    : 0 < i.unit :=
  div_pos (zpow_pos (by norm_num) _) (by positivity)

/-- The number itself is in the interval. All parts are words of 64 bits, the units are fractions
with nine digits before them at most, and 17 digits lead into the interval.
-/
structure Sound (i : SafeInterval) : Prop where
  depth_le : i.depth ≤ i.width
  width_lt : i.width < i.top
  top_lt : i.top < 2 ^ 64
  top_le : i.top ≤ 10 ^ 16 * i.width
  fine : i.fractionBits ≤ 60
  whole : i.top < 10 ^ 9 * 2 ^ i.fractionBits

/-- What is between the ends is strictly between the halves around the number. -/
structure Reads (i : SafeInterval) (m : Nat) (e : Int) : Prop where
  low : magnitude (lowerQuarters m) (e - 2) < ((i.top - i.width : Nat) : Rat) * i.unit
  high : i.top * i.unit < magnitude (4 * m + 2) (e - 2)

section Scaled

variable {x : Rat} {m n s t : Nat}

/-- Numbers that are far apart are apart when scaled. -/
theorem scaled_add_two_le (low : 49 / 100 ≤ x) (first : |(s : Rat) - m * x| < 1)
    (second : |(t : Rat) - n * x| < 1) (apart : m + 512 ≤ n)
    : s + 2 ≤ t := by
  rw [abs_lt] at first second
  have apart : (m : Rat) + 512 ≤ n := by exact_mod_cast apart
  have scaled := mul_le_mul_of_nonneg_right apart (by linarith : 0 ≤ x)
  have : (s : Rat) + 2 ≤ t := by linarith
  exact_mod_cast this

/-- The ratio of a number to its distance from another one is kept. -/
theorem scaled_wide (low : 49 / 100 ≤ x) (first : |(s : Rat) - m * x| < 1)
    (second : |(t : Rat) - n * x| < 1) (apart : m + 512 ≤ n)
    (wide : n ≤ 10 ^ 16 * (n - m - 9))
    : t ≤ 10 ^ 16 * (t - s - 2) := by
  have scaled_apart := scaled_add_two_le low first second apart
  rw [abs_lt] at first second
  have wide : (n : Rat) ≤ 10 ^ 16 * (n - m - 9) := by
    have cast : (n : Rat) ≤ 10 ^ 16 * ((n - m - 9 : Nat) : Rat) := by exact_mod_cast wide
    rwa [Nat.cast_sub (by omega), Nat.cast_sub (by omega)] at cast
  have scaled := mul_le_mul_of_nonneg_right wide (by linarith : 0 ≤ x)
  have : (t : Rat) ≤ 10 ^ 16 * ((t - s - 2 : Nat) : Rat) := by
    rw [Nat.cast_sub (by omega), Nat.cast_sub (by omega)]
    push_cast
    linarith
  exact_mod_cast this

end Scaled

section Number

variable {b : Binary}

/-- The exponent of the ends, over all finite numbers. -/
theorem endExponent_range (canonical : Canonical b.significand b.exponent)
    (range : b.exponent ≤ 971) (positive : 0 < b.significand)
    : -1137 ≤ endExponent b.significand b.exponent
      ∧ endExponent b.significand b.exponent ≤ 960 := by
  have least := canonical.least
  have long := (spare_bounds canonical.small).1
  have digits : 1 ≤ (2 * b.significand + 1).log2 := (Nat.le_log2 (by omega)).mpr (by omega)
  have short : spare b.significand ≤ 62 := by
    unfold spare
    omega
  unfold endExponent
  omega

theorem suits_power (canonical : Canonical b.significand b.exponent)
    (range : b.exponent ≤ 971) (positive : 0 < b.significand)
    : (power b).Suits (scaling (endExponent b.significand b.exponent)) :=
  have ⟨least, greatest⟩ := endExponent_range canonical range positive
  suits_scaling least greatest

/-- The number of bits of the fraction, by the exponents of the number and of the power. -/
theorem fractionBits_eq (canonical : Canonical b.significand b.exponent)
    (range : b.exponent ≤ 971) (positive : 0 < b.significand)
    : ((ofBinary b).fractionBits : Int)
      = -(endExponent b.significand b.exponent + (power b).exponent + 64) := by
  have coarse := (suits_power canonical range positive).coarse
  have greatest := (exponent_of_scaling (endExponent b.significand b.exponent)).2
  rw [ofBinary_eq canonical.small]
  dsimp only
  omega

/-- By what exact scaling multiplies the ends. -/
def factor (b : Binary) : Rat :=
  ratio (scaling (endExponent b.significand b.exponent)) / 2 ^ 64

theorem factor_bounds (canonical : Canonical b.significand b.exponent) (range : b.exponent ≤ 971)
    (positive : 0 < b.significand)
    : 49 / 100 ≤ factor b ∧ factor b < 1 :=
  (suits_power canonical range positive).ratio_bounds

/-- An end that is scaled exactly is worth as much as before. -/
theorem factor_mul_unit (canonical : Canonical b.significand b.exponent)
    (range : b.exponent ≤ 971) (positive : 0 < b.significand)
    : factor b * (ofBinary b).unit = 2 ^ endExponent b.significand b.exponent := by
  have bits := fractionBits_eq canonical range positive
  have exponent
      : (ofBinary b).exponent = -scaling (endExponent b.significand b.exponent) :=
    rfl
  rw [factor, unit, exponent, ratio, ← zpow_natCast 2 (ofBinary b).fractionBits, bits,
    ← zpow_natCast 2 64]
  change 10 ^ _ / 2 ^ (power b).exponent / _ * _ = _
  set e := endExponent b.significand b.exponent
  set f := (power b).exponent
  have power : (10 : Rat) ^ scaling e ≠ 0 := (zpow_pos (by norm_num) _).ne'
  calc
    (10 : Rat) ^ scaling e / 2 ^ f / 2 ^ ((64 : Nat) : Int)
          * (10 ^ (-scaling e) / 2 ^ (-(e + f + 64)))
        = 2 ^ (e + f + 64) / (2 ^ f * 2 ^ ((64 : Nat) : Int)) := by
      rw [zpow_neg, zpow_neg]
      field_simp
    _ = 2 ^ e := by
      rw [← zpow_add₀ (by norm_num), ← zpow_sub₀ (by norm_num)]
      congr 1
      push_cast
      ring

/-- An end that is scaled is less than one unit off. -/
theorem abs_scale_sub_factor_lt (b : Binary) {n : Nat} (short : n < 2 ^ 64)
    : |((power b).scale n : Rat) - n * factor b| < 1 := by
  rw [factor, ← mul_div_assoc]
  exact abs_scale_sub_lt short _

/-- The interval of a number has the parts that make it safe. -/
theorem sound_ofBinary (canonical : Canonical b.significand b.exponent)
    (range : b.exponent ≤ 971) (positive : 0 < b.significand)
    : (ofBinary b).Sound := by
  have suits := suits_power canonical range positive
  have low := (factor_bounds canonical range positive).1
  obtain ⟨nonzero, below, above, wide⟩ := ends_apart canonical.small positive
  obtain ⟨-, long, short⟩ := spare_bounds canonical.small
  have upper := abs_scale_sub_factor_lt b short
  have middle := abs_scale_sub_factor_lt b (by omega : fullLength b.significand < 2 ^ 64)
  have lower := abs_scale_sub_factor_lt b (by omega : lowerEnd b.significand < 2 ^ 64)
  have first := scaled_add_two_le low lower middle below
  have second := scaled_add_two_le low middle upper (by omega)
  have digits := scaled_wide low lower upper (by omega) wide
  have top_le := scale_le (power b) short
  have least := exponent_of_scaling (endExponent b.significand b.exponent)
  have coarse := suits.coarse
  have fine := suits.fine
  have bits := fractionBits_eq canonical range positive
  have whole : (power b).significand < 10 ^ 9 * 2 ^ (ofBinary b).fractionBits := by
    refine suits.whole.trans_le (Nat.mul_le_mul_left _ (Nat.pow_le_pow_right two_pos ?_))
    omega
  have short := suits.short
  rw [ofBinary_eq canonical.small] at bits whole ⊢
  dsimp only at bits whole
  constructor <;> dsimp only <;> omega

/-- The interval of a number is strictly between its halves. Witness: drawing in the scaled ends
outweighs the error of their scaling.
-/
theorem reads_ofBinary (canonical : Canonical b.significand b.exponent)
    (range : b.exponent ≤ 971) (positive : 0 < b.significand)
    : (ofBinary b).Reads b.significand b.exponent := by
  have low := (factor_bounds canonical range positive).1
  obtain ⟨-, below, above, -⟩ := ends_apart canonical.small positive
  have short := (spare_bounds canonical.small).2.2
  have upper := abs_scale_sub_factor_lt b short
  have lower := abs_scale_sub_factor_lt b (by omega : lowerEnd b.significand < 2 ^ 64)
  have apart := scaled_add_two_le low lower upper (by omega)
  have bottom
      : (ofBinary b).top - (ofBinary b).width
        = (power b).scale (lowerEnd b.significand) + 1 := by
    rw [ofBinary_eq canonical.small]
    dsimp only
    omega
  have top : (ofBinary b).top + 1 = (power b).scale (upperEnd b.significand) := by
    rw [ofBinary_eq canonical.small]
    dsimp only
    omega
  rw [← top, Nat.cast_succ, abs_lt] at upper
  rw [abs_lt] at lower
  constructor
  · rw [← magnitude_lowerEnd canonical.small, magnitude,
      ← factor_mul_unit canonical range positive, ← mul_assoc, bottom, Nat.cast_succ]
    exact mul_lt_mul_of_pos_right (by linarith) (unit_pos _)
  · rw [← magnitude_upperEnd, magnitude, ← factor_mul_unit canonical range positive, ← mul_assoc]
    exact mul_lt_mul_of_pos_right (by linarith) (unit_pos _)

end Number

end SafeInterval

end Calculator
