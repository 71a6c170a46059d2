import Mathlib
import Calculator.Proofs.Binary.Nearest

/-! Rounding gives the nearest magnitude. Shifting a significand to the right keeps, in two
bits, where the exact value is between the significand and the next one, and that is all that
rounding to the nearest needs to know.
-/

namespace Calculator.Binary

open Float.Model Float.Model.UnpackedFloat

/-- The accuracy of a significand tells where an exact value is from there. -/
def Locates (m : Nat) (x : Rat) : Accuracy → Prop
  | .exact => x = m
  | .inexact .lt => m < x ∧ x < m + 1 / 2
  | .inexact .eq => x = m + 1 / 2
  | .inexact .gt => m + 1 / 2 < x ∧ x < m + 1

theorem locates_ofMantissaAndAccuracy {m : Nat} {x : Rat} {accuracy : Accuracy}
    (located : Locates m x accuracy)
    : let em := ExtendedMantissa.ofMantissaAndAccuracy m accuracy
      Locates em.mantissa x em.accuracy := by
  cases accuracy with
  | exact => exact located
  | inexact order => cases order <;> exact located

/-- The round bit tells in which half above the significand the exact value is, and the sticky
bit whether it is inside that half or at its lower end.
-/
theorem locates_accuracy_iff (em : ExtendedMantissa) (x : Rat)
    : Locates em.mantissa x em.accuracy
      ↔ let low := (em.mantissa : Rat) + if em.roundBit then 1 / 2 else 0
        if em.stickyBit then low < x ∧ x < low + 1 / 2 else x = low := by
  obtain ⟨m, roundBit, stickyBit⟩ := em
  have whole : (m : Rat) + 1 / 2 + 1 / 2 = m + 1 := by ring
  cases roundBit with
  | false => cases stickyBit <;> simp [ExtendedMantissa.accuracy, Locates]
  | true =>
      cases stickyBit with
      | false => simp [ExtendedMantissa.accuracy, Locates]
      | true => simp only [ExtendedMantissa.accuracy, Locates, if_true, whole]

/-- Shifting by one place halves the value, and the bits that are left tell where it is. -/
theorem locates_shiftRightOne {em : ExtendedMantissa} {x : Rat}
    (located : Locates em.mantissa x em.accuracy)
    : Locates em.shiftRightOne.mantissa (x / 2) em.shiftRightOne.accuracy := by
  rw [locates_accuracy_iff] at located ⊢
  obtain ⟨m, roundBit, stickyBit⟩ := em
  -- The digit that is shifted out is the new round bit, so the lower end is halved exactly.
  have low : ((m / 2 : Nat) : Rat) + (if m % 2 != 0 then 1 / 2 else 0) = m / 2 := by
    have digits : ((m / 2 : Nat) : Rat) * 2 + ((m % 2 : Nat) : Rat) = m := by
      exact_mod_cast Nat.div_add_mod' m 2
    rcases Nat.mod_two_eq_zero_or_one m with even | odd
    · rw [even] at digits ⊢
      norm_num at digits ⊢
      linarith
    · rw [odd] at digits ⊢
      norm_num at digits ⊢
      linarith
  suffices shifted
      : if roundBit || stickyBit then (m : Rat) / 2 < x / 2 ∧ x / 2 < m / 2 + 1 / 2
        else x / 2 = m / 2 by
    rw [← low] at shifted
    exact shifted
  cases roundBit with
  | false =>
      cases stickyBit with
      | false =>
          simp only [Bool.false_eq_true, Bool.or_self, if_false, add_zero] at located ⊢
          linarith
      | true =>
          simp only [Bool.false_eq_true, Bool.or_true, if_true, if_false, add_zero] at located ⊢
          constructor <;> linarith
  | true =>
      cases stickyBit with
      | false =>
          simp only [Bool.false_eq_true, Bool.or_false, if_true, if_false] at located ⊢
          constructor <;> linarith
      | true =>
          simp only [Bool.or_self, if_true] at located ⊢
          constructor <;> linarith

/-- A shifted mantissa still tells where the exact value is. Witness: induction on the number of
places.
-/
theorem locates_shiftRight {em : ExtendedMantissa} {x : Rat}
    (located : Locates em.mantissa x em.accuracy) (k : Nat)
    : Locates (em >>> k).mantissa (x / 2 ^ k) (em >>> k).accuracy := by
  induction k with
  | zero => simpa [HShiftRight.hShiftRight, Nat.repeat] using located
  | succ k ih =>
      have shifted := locates_shiftRightOne ih
      rw [div_div, ← pow_succ] at shifted
      exact shifted

/-- A shift divides the mantissa and drops the rest. -/
theorem mantissa_shiftRight (em : ExtendedMantissa) (k : Nat)
    : (em >>> k).mantissa = em.mantissa / 2 ^ k := by
  induction k with
  | zero => simp [HShiftRight.hShiftRight, Nat.repeat]
  | succ k ih =>
      change (em >>> k).mantissa / 2 = _
      rw [ih, Nat.div_div_eq_div_mul, pow_succ]

/-- No value outside the two neighbouring whole numbers is nearer than the rounded one, and if
one is as near then the rounded one is even.
-/
theorem roundToNearestEven_nearest {m : Nat} {x : Rat} {accuracy : Accuracy}
    (located : Locates m x accuracy) {w : Rat} (outside : w ≤ m ∨ (m : Rat) + 1 ≤ w)
    : let r := accuracy.roundToNearestEven m
      |x - r| ≤ |x - w| ∧ (|x - r| = |x - w| → w = r ∨ r % 2 = 0) := by
  have left (below : w ≤ m) (le : (m : Rat) ≤ x) : |x - w| = x - w :=
    abs_of_nonneg (by linarith)
  have right (above : (m : Rat) + 1 ≤ w) (le : x ≤ m + 1) : |x - w| = w - x := by
    rw [abs_sub_comm]
    exact abs_of_nonneg (by linarith)
  cases accuracy with
  | exact =>
      obtain rfl : x = m := located
      refine ⟨by simp [Accuracy.roundToNearestEven], fun tie => .inl ?_⟩
      simp only [Accuracy.roundToNearestEven, sub_self, abs_zero] at tie ⊢
      exact (sub_eq_zero.mp (abs_eq_zero.mp tie.symm)).symm
  | inexact order =>
      cases order with
      | lt =>
          obtain ⟨low, high⟩ := located
          have distance : |x - m| = x - m := abs_of_nonneg (by linarith)
          change |x - m| ≤ |x - w| ∧ (|x - m| = |x - w| → w = m ∨ m % 2 = 0)
          rcases outside with below | above
          · have other := left below low.le
            exact ⟨by linarith, fun tie => .inl (by linarith)⟩
          · have other := right above (by linarith)
            exact ⟨by linarith, fun tie => .inl (by linarith)⟩
      | eq =>
          have half : x = m + 1 / 2 := located
          have even : (m + m % 2) % 2 = 0 := by omega
          refine ⟨?_, fun _ => .inr even⟩
          have distance : |x - ((m + m % 2 : Nat) : Rat)| = 1 / 2 := by
            rcases Nat.mod_two_eq_zero_or_one m with zero | one
            · rw [zero, half, Nat.add_zero, add_sub_cancel_left]
              norm_num
            · rw [one, half]
              push_cast
              rw [add_sub_add_left_eq_sub]
              norm_num
          change |x - ((m + m % 2 : Nat) : Rat)| ≤ |x - w|
          rcases outside with below | above
          · have other := left below (by linarith)
            linarith
          · have other := right above (by linarith)
            linarith
      | gt =>
          obtain ⟨low, high⟩ := located
          have distance : |x - ((m + 1 : Nat) : Rat)| = m + 1 - x := by
            rw [abs_sub_comm]
            push_cast
            exact abs_of_nonneg (by linarith)
          have value : ((m + 1 : Nat) : Rat) = m + 1 := by push_cast; rfl
          change |x - ((m + 1 : Nat) : Rat)| ≤ |x - w|
            ∧ (|x - ((m + 1 : Nat) : Rat)| = |x - w| → w = ((m + 1 : Nat) : Rat) ∨ (m + 1) % 2 = 0)
          rcases outside with below | above
          · have other := left below (by linarith)
            exact ⟨by linarith, fun tie => .inl (by linarith)⟩
          · have other := right above high.le
            exact ⟨by linarith, fun tie => .inl (by linarith)⟩

--------------------------------------------------------------------------------
-- Rounding a significand
--------------------------------------------------------------------------------

/-- A magnitude with its sign, taken apart as the operations of numbers take it. -/
def unpacked (sign : Sign) (m : Nat) (e : Int) : UnpackedFloat :=
  if h : m = 0 then .zero sign else .finite sign m e (Nat.pos_of_ne_zero h)

/-- The exponent at which a significand has at most 53 digits. -/
def target (m : Nat) (e : Int) : Int :=
  max (m.log2 + 1 + e - 53) (-1074)

theorem targetExponent_eq (m : Nat) (e : Int)
    : Format.binary64.targetExponent (totalExponent m e) = target m e := by
  simp [Format.targetExponent, totalExponent, Format.mantissaBits, Format.minExponent, target]

theorem shiftToTargetExponent_eq (m : Nat) (e : Int) (accuracy : Accuracy)
    : shiftToTargetExponent .binary64 m e accuracy
      = (ExtendedMantissa.ofMantissaAndAccuracy m accuracy >>> (target m e - e).toNat,
        e + (target m e - e).toNat) := by
  rw [shiftToTargetExponent, targetExponent_eq]
  rfl

/-- A significand that fits is not shifted. -/
theorem shiftToTargetExponent_of_small {m : Nat} {e : Int} (small : m < 2 ^ 53)
    (least : -1074 ≤ e)
    : shiftToTargetExponent .binary64 m e .exact = (⟨m, false, false⟩, e) := by
  have digits : m.log2 ≤ 52 := by
    by_cases zero : m = 0
    · simp [zero]
    · have := (Nat.log2_lt zero).mpr small
      omega
  have none : (target m e - e).toNat = 0 := by
    unfold target
    omega
  rw [shiftToTargetExponent_eq, none]
  simp [HShiftRight.hShiftRight, Nat.repeat, ExtendedMantissa.ofMantissaAndAccuracy]

/-- The first significand that does not fit is halved, and its exponent is one more. -/
theorem shiftToTargetExponent_of_full {e : Int} (least : -1074 ≤ e)
    : shiftToTargetExponent .binary64 (2 ^ 53) e .exact = (⟨2 ^ 52, false, false⟩, e + 1) := by
  have one : (target (2 ^ 53) e - e).toNat = 1 := by
    unfold target
    rw [Nat.log2_two_pow]
    omega
  rw [shiftToTargetExponent_eq, one]
  simp [HShiftRight.hShiftRight, Nat.repeat, ExtendedMantissa.ofMantissaAndAccuracy,
    ExtendedMantissa.shiftRightOne]

/-- The significand that is rounded first is canonical, though rounding may carry it over. -/
theorem canonical_shifted {m : Nat} {e : Int} (fits : e ≤ target m e)
    : Canonical (m / 2 ^ (target m e - e).toNat) (target m e) := by
  set k := (target m e - e).toNat with shift
  have least : -1074 ≤ target m e := le_max_right _ _
  have digits : m.log2 ≤ 52 + k := by
    have := le_max_left ((m.log2 : Int) + 1 + e - 53) (-1074)
    change _ ≤ target m e at this
    omega
  refine ⟨?_, least, ?_⟩
  · rw [Nat.div_lt_iff_lt_mul (Nat.two_pow_pos k), ← pow_add]
    exact Nat.lt_log2_self.trans_le (Nat.pow_le_pow_right (by norm_num) (by omega))
  · by_cases subnormal : target m e = -1074
    · exact .inl subnormal
    · right
      have exact_digits : m.log2 = 52 + k := by
        have := max_choice ((m.log2 : Int) + 1 + e - 53) (-1074)
        change target m e = _ ∨ target m e = _ at this
        omega
      have nonzero : m ≠ 0 := by
        intro zero
        rw [zero, Nat.log2_zero] at exact_digits
        omega
      rw [Nat.le_div_iff_mul_le (Nat.two_pow_pos k), ← pow_add, ← exact_digits]
      exact Nat.log2_self_le nonzero

/-- Rounding gives the mantissa or the one behind it. -/
theorem roundToNearestEven_eq_or (m : Nat) (accuracy : Accuracy)
    : accuracy.roundToNearestEven m = m ∨ accuracy.roundToNearestEven m = m + 1 := by
  cases accuracy with
  | exact => exact .inl rfl
  | inexact order =>
      cases order with
      | lt => exact .inl rfl
      | eq =>
          change m + m % 2 = m ∨ m + m % 2 = m + 1
          omega
      | gt => exact .inr rfl

/-- Rounding to the neighbour of a canonical magnitude that is the nearer one, with ties to the
even significand, finds the nearest magnitude of all.
-/
theorem nearest_of_rounded {v : Rat} {m n : Nat} {e f : Int} {accuracy : Accuracy}
    (canonical : Canonical m e) (located : Locates m (v / 2 ^ e) accuracy)
    (rounded : Canonical n f) (value : magnitude n f = magnitude (accuracy.roundToNearestEven m) e)
    (even : accuracy.roundToNearestEven m % 2 = 0 → n % 2 = 0)
    : Nearest v n f := by
  have unit := unit_pos e
  have distance (w : Rat) : |v - w| = |v / 2 ^ e - w / 2 ^ e| * 2 ^ e := by
    rw [← sub_div, abs_div, abs_of_pos unit, div_mul_cancel₀ _ unit.ne']
  have compared {k : Nat} {g : Int} (other : Canonical k g) :=
    roundToNearestEven_nearest (w := magnitude k g / 2 ^ e) located (by
      rcases le_or_gt (magnitude k g) (magnitude m e) with below | above
      · left
        rw [← magnitude_div_unit m e]
        exact div_le_div_of_nonneg_right below unit.le
      · right
        have next := canonical.succ_le other above
        rw [← Nat.cast_succ, ← magnitude_div_unit (m + 1) e]
        exact div_le_div_of_nonneg_right next unit.le)
  refine ⟨rounded, ?_, ?_⟩
  · intro k g other
    rw [value, distance, distance (magnitude k g), magnitude_div_unit]
    exact mul_le_mul_of_nonneg_right (compared other).1 unit.le
  · intro k g other tie
    rw [value, distance, distance (magnitude k g), magnitude_div_unit, mul_eq_mul_right_iff] at tie
    rcases (compared other).2 (tie.resolve_right unit.ne') with same | isEven
    · left
      rw [value, ← magnitude_div_unit _ e, div_left_inj' unit.ne'] at *
      exact same
    · exact .inr (even isEven)

/-- Rounding finds the nearest magnitude. Witness: the significand is shifted to 53 digits,
rounded to a neighbour, and shifted once more if it is carried over.
-/
theorem roundWithAccuracy_nearest {v : Rat} {m : Nat} {e : Int} {accuracy : Accuracy}
    (located : Locates m (v / 2 ^ e) accuracy) (fits : e ≤ target m e) (sign : Sign)
    : ∃ n f, Nearest v n f
        ∧ roundWithAccuracy .binary64 sign m e accuracy = unpacked sign n f := by
  have canonical := canonical_shifted fits
  set k := (target m e - e).toNat with shift
  have exponent : e + k = target m e := by omega
  set em := ExtendedMantissa.ofMantissaAndAccuracy m accuracy >>> k with shifted
  have mantissa : em.mantissa = m / 2 ^ k := by
    rw [shifted, mantissa_shiftRight]
    cases accuracy with
    | exact => rfl
    | inexact order => cases order <;> rfl
  have located := locates_shiftRight (locates_ofMantissaAndAccuracy located) k
  rw [← shifted, div_div, ← zpow_natCast, ← zpow_add₀ (by norm_num), exponent] at located
  rw [← mantissa] at canonical
  have rounds : roundWithAccuracy .binary64 sign m e accuracy
      = let r := em.roundedMantissa
        let final := shiftToTargetExponent .binary64 r (target m e) .exact
        unpacked sign final.1.mantissa final.2 := by
    rw [roundWithAccuracy, shiftToTargetExponent_eq, ← shift, ← shifted, exponent]
    rfl
  have neighbour := roundToNearestEven_eq_or em.mantissa em.accuracy
  change em.roundedMantissa = _ ∨ em.roundedMantissa = _ at neighbour
  have small := canonical.small
  rw [rounds]
  -- Rounding up may carry the significand over, and then it is shifted once more.
  by_cases full : em.roundedMantissa < 2 ^ 53
  · have rounded : Canonical em.roundedMantissa (target m e) :=
      ⟨full, canonical.least, canonical.normal.imp_right fun normal => by omega⟩
    refine ⟨em.roundedMantissa, target m e, ?_, ?_⟩
    · exact nearest_of_rounded canonical located rounded rfl id
    · simp only [shiftToTargetExponent_of_small full canonical.least]
  · have carried : em.roundedMantissa = 2 ^ 53 := by omega
    have rounded : Canonical (2 ^ 52) (target m e + 1) :=
      ⟨by norm_num, by have := canonical.least; omega, .inr le_rfl⟩
    refine ⟨2 ^ 52, target m e + 1, ?_, ?_⟩
    · refine nearest_of_rounded canonical located rounded ?_ fun _ => by norm_num
      change _ = magnitude em.roundedMantissa _
      have shift := magnitude_shift (2 ^ 52) 1 (target m e)
      rw [carried, show 2 ^ 53 = 2 ^ 52 * 2 ^ 1 by norm_num, shift, Nat.cast_one]
    · simp only [carried, shiftToTargetExponent_of_full canonical.least]

end Calculator.Binary
