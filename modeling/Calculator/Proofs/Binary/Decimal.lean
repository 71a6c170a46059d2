import Calculator.Decimal.Basic
import Calculator.Proofs.Binary.Arithmetic

/-! Decimals as numbers. A decimal is read as the nearest number to its exact value. Reading it
does not compute powers of ten that are far beyond the range on either side, where an infinity
and zero are the nearest numbers.
-/

namespace Calculator

open Float.Model Float.Model.UnpackedFloat

namespace Binary

/-- Below half of the least magnitude zero is the nearest. -/
theorem nearest_zero_of_small {v : Rat} (nonneg : 0 ≤ v) (small : 2 * v < 2 ^ (-1074 : Int))
    : Nearest v 0 (-1074) where
  canonical := ⟨by norm_num, le_rfl, .inl rfl⟩
  le := by
    intro n f canonical
    rw [magnitude_zero, sub_zero, abs_of_nonneg nonneg]
    by_cases zero : n = 0
    · rw [zero, magnitude_zero, sub_zero, abs_of_nonneg nonneg]
    · have least : (2 : Rat) ^ (-1074 : Int) ≤ magnitude n f := by
        calc
          (2 : Rat) ^ (-1074 : Int) ≤ 2 ^ f :=
            zpow_le_zpow_right₀ (by norm_num) canonical.least
          _ = magnitude 1 f := by rw [magnitude, Nat.cast_one, one_mul]
          _ ≤ magnitude n f := (magnitude_le_iff f).mpr (Nat.pos_of_ne_zero zero)
      rw [abs_of_nonpos (by linarith)]
      linarith
  even := fun _ _ _ _ => .inr rfl

/-- Every whole number has a nearest magnitude. -/
theorem exists_nearest_whole (n : Nat)
    : ∃ m e, Nearest n m e := by
  obtain ⟨m, e, nearest, _⟩ := toFloat_eq_store ⟨false, n, 0⟩
  refine ⟨m, e, ?_⟩
  simpa [absolute, magnitude] using nearest

/-- What is nearest to a value far beyond the range is stored as an infinity. -/
theorem store_of_large {v : Rat} {m : Nat} {e : Int} (negative : Bool) (near : Nearest v m e)
    (large : 2 ^ (1024 : Int) ≤ v)
    : store negative m e = .ofModel (.pack (.infinity (signOf negative))) := by
  have le := near.canonical.le_exponent (near.two_pow_le (by norm_num) large)
  have overflow : 971 < e := by omega
  have bits
      : UnpackedFloat.pack .binary64 (unpacked (signOf negative) m e)
        = UnpackedFloat.pack .binary64 (.infinity (signOf negative)) := by
    rw [pack_unpacked _ near.canonical, if_pos overflow]
    rfl
  simp only [store, Float.Model.pack, bits]

end Binary

namespace Decimal

open Binary

/-- The exact value. -/
def value (d : Decimal) : Rat :=
  d.significand * 10 ^ d.exponent

theorem value_natCast (m k : Nat)
    : value ⟨m, k⟩ = (m * 10 ^ k : Nat) := by
  simp [value]

theorem value_neg_natCast (m k : Nat)
    : value ⟨m, -k⟩ = magnitude m 0 / magnitude (10 ^ k) 0 := by
  simp [value, magnitude, div_eq_mul_inv]

/-- A whole multiple of a large power of ten is beyond the range. -/
theorem le_value_of_large {m k : Nat} (nonzero : m ≠ 0) (large : 2 ^ 11 < k)
    : 2 ^ (1024 : Int) ≤ value ⟨m, k⟩ := by
  rw [value_natCast]
  calc
    (2 : Rat) ^ (1024 : Int) ≤ 2 ^ (k : Int) :=
      zpow_le_zpow_right₀ (by norm_num) (by omega)
    _ ≤ 10 ^ k := by
      rw [zpow_natCast]
      exact pow_le_pow_left₀ (by norm_num) (by norm_num) k
    _ ≤ (m * 10 ^ k : Nat) := by
      exact_mod_cast Nat.le_mul_of_pos_left (10 ^ k) (Nat.pos_of_ne_zero nonzero)

/-- Behind a large power of ten what is left of a significand is below the least magnitude. -/
theorem value_lt_of_small {m k : Nat} (small : 2 ^ 11 + m.log2 < k)
    : 2 * value ⟨m, -k⟩ < 2 ^ (-1074 : Int) := by
  have dividend : magnitude m 0 < 2 ^ ((m.log2 : Int) + 1) := by
    simpa using magnitude_lt_of_lt (Nat.lt_log2_self : m < 2 ^ (m.log2 + 1)) 0
  have divisor : 2 ^ (k : Int) ≤ magnitude (10 ^ k) 0 := by
    have power : 2 ^ k ≤ 10 ^ k := Nat.pow_le_pow_left (by norm_num) k
    simpa using le_magnitude_of_le power 0
  have quotient : value ⟨m, -k⟩ < 2 ^ ((m.log2 : Int) + 1) / 2 ^ (k : Int) := by
    rw [value_neg_natCast]
    exact div_lt_div₀ dividend divisor (unit_pos _).le (unit_pos _)
  calc
    2 * value ⟨m, -k⟩ < 2 * (2 ^ ((m.log2 : Int) + 1) / 2 ^ (k : Int)) :=
      mul_lt_mul_of_pos_left quotient (by norm_num)
    _ = 2 ^ ((m.log2 : Int) + 2 - k) := by
      rw [← zpow_sub₀ (by norm_num), ← zpow_one_add₀ (by norm_num)]
      congr 1
      ring
    _ ≤ 2 ^ (-1074 : Int) := zpow_le_zpow_right₀ (by norm_num) (by omega)

/-- A significand that is shifted by all digits it can have is long enough to be multiplied. -/
theorem fits_shifted {m n : Nat} (left : m ≠ 0) (right : 0 < n)
    : (-53 : Int) + 0 ≤ target ((m <<< 53) * n) (-53 + 0) := by
  have long : 2 ^ 52 ≤ (m <<< 53) * n := by
    rw [Nat.shiftLeft_eq, mul_assoc]
    refine le_trans ?_ (Nat.le_mul_of_pos_left _ (Nat.pos_of_ne_zero left))
    exact le_trans (by norm_num) (Nat.le_mul_of_pos_right (2 ^ 53) right)
  have digits := (Nat.le_log2 (by omega)).mpr long
  refine le_trans ?_ (le_max_left _ _)
  omega

--------------------------------------------------------------------------------
-- Reading
--------------------------------------------------------------------------------

/-- What is stored for a decimal is the nearest number to its exact value. -/
def IsReadAs (d : Decimal) (u : UnpackedFloat) : Prop :=
  ∃ m e, Nearest d.value m e ∧ Float.ofModel (.pack u) = store false m e

theorem isReadAs_infinity {m k : Nat} (nonzero : m ≠ 0) (large : 2 ^ 11 < k)
    : IsReadAs ⟨m, k⟩ (.infinity .positive) := by
  obtain ⟨n, f, nearest⟩ := exists_nearest_whole (m * 10 ^ k)
  rw [← value_natCast] at nearest
  exact ⟨n, f, nearest, (store_of_large false nearest (le_value_of_large nonzero large)).symm⟩

theorem isReadAs_zero {m k : Nat} (small : 2 ^ 11 + m.log2 < k)
    : IsReadAs ⟨m, -k⟩ (.zero .positive) := by
  have positive : 0 ≤ value ⟨m, -k⟩ := by
    rw [value_neg_natCast]
    exact div_nonneg (magnitude_nonneg _ _) (magnitude_nonneg _ _)
  exact ⟨0, -1074, nearest_zero_of_small positive (value_lt_of_small small), rfl⟩

/-- A power of ten is multiplied with the significand, which is shifted first. -/
theorem isReadAs_product {m k : Nat} (shifted : 0 < m <<< 53) (power : 0 < 10 ^ k)
    : IsReadAs ⟨m, k⟩
      (UnpackedFloat.mul .binary64 (.finite .positive (m <<< 53) (-53) shifted)
        (.finite .positive (10 ^ k) 0 power)) := by
  have nonzero : m ≠ 0 := by
    rintro rfl
    simp at shifted
  have exact_value : value ⟨m, k⟩ = magnitude (m <<< 53) (-53) * magnitude (10 ^ k) 0 := by
    rw [Nat.shiftLeft_eq, magnitude_shift m 53 (-53)]
    simp [value, magnitude]
  obtain ⟨n, f, nearest, product⟩ :=
    @mul_nearest _ _ (-53) 0 shifted power (fits_shifted nonzero power) .positive .positive
  rw [← exact_value] at nearest
  exact ⟨n, f, nearest, congrArg (fun u => Float.ofModel (.pack u)) product⟩

/-- The significand is divided by a power of ten. -/
theorem isReadAs_quotient {m k : Nat} (positive : 0 < m) (power : 0 < 10 ^ k)
    : IsReadAs ⟨m, -k⟩
      (UnpackedFloat.div .binary64 (.finite .positive m 0 positive)
        (.finite .positive (10 ^ k) 0 power)) := by
  obtain ⟨n, f, nearest, quotient⟩ := div_nearest 0 0 positive power .positive .positive
  rw [← value_neg_natCast] at nearest
  exact ⟨n, f, nearest, congrArg (fun u => Float.ofModel (.pack u)) quotient⟩

/-- A decimal is read as the nearest number to its exact value. -/
theorem toFloat_eq_store (d : Decimal)
    : ∃ m e, Nearest d.value m e ∧ d.toFloat = store false m e := by
  obtain ⟨m, e⟩ := d
  change IsReadAs ⟨m, e⟩ (UnpackedFloat.ofScientific .binary64 m e)
  by_cases zero : m = 0
  · subst zero
    exact ⟨0, -1074, by simpa [value] using nearest_zero, rfl⟩
  · have bits : Format.binary64.exponentBits = 11 := rfl
    rw [UnpackedFloat.ofScientific, dif_neg zero, bits]
    split
    · rename_i large
      obtain ⟨k, rfl⟩ := Int.eq_ofNat_of_zero_le (by omega : 0 ≤ e)
      exact isReadAs_infinity zero (by omega)
    · split
      · obtain ⟨k, rfl⟩ := Int.exists_eq_neg_ofNat (by omega : e ≤ 0)
        exact isReadAs_zero (by omega)
      · split
        · rename_i whole
          obtain ⟨k, rfl⟩ := Int.eq_ofNat_of_zero_le whole
          exact isReadAs_product _ _
        · obtain ⟨k, rfl⟩ := Int.exists_eq_neg_ofNat (by omega : e ≤ 0)
          have power : (-(-(k : Int))).toNat = k := by simp
          simp only [power]
          exact isReadAs_quotient _ _

end Decimal

end Calculator
