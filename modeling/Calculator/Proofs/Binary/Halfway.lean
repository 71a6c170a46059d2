import Calculator.Proofs.Binary.Nearest

/-! The values around a magnitude that are nearest to it. They reach halfway to the magnitudes
before and behind it, and the one before a power of two is only half a unit away.
-/

namespace Calculator.Binary

/-- The lower end of the values that are nearest to a magnitude, in quarters of its unit. -/
def lowerQuarters (m : Nat) : Nat :=
  if m = 2 ^ 52 then 4 * m - 1 else 4 * m - 2

/-- The distance down to the magnitude before. -/
def gapBelow (m : Nat) (e : Int) : Rat :=
  if m = 2 ^ 52 then 2 ^ e / 2 else 2 ^ e

theorem quarter (e : Int)
    : (2 : Rat) ^ (e - 2) = 2 ^ e / 4 := by
  rw [zpow_sub₀ (by norm_num)]
  norm_num

theorem magnitude_upperQuarters (m : Nat) (e : Int)
    : magnitude (4 * m + 2) (e - 2) = magnitude m e + 2 ^ e / 2 := by
  rw [magnitude, magnitude, quarter]
  push_cast
  ring

/-- The lower end of what rounds to a number lies half a gap below it. Witness: the gap is narrower
below a power of two, which is a case of its own.
-/
theorem magnitude_lowerQuarters {m : Nat} (positive : 0 < m) (e : Int)
    : magnitude (lowerQuarters m) (e - 2) = magnitude m e - gapBelow m e / 2 := by
  unfold lowerQuarters gapBelow
  rw [magnitude, magnitude, quarter]
  split
  · rw [Nat.cast_sub (by omega)]
    push_cast
    ring
  · rw [Nat.cast_sub (by omega)]
    push_cast
    ring

namespace Canonical

variable {m n : Nat} {e f : Int}

/-- Every magnitude below another one is at least its gap below. -/
theorem le_sub_gapBelow (a : Canonical m e) (b : Canonical n f)
    (lt : magnitude n f < magnitude m e)
    : magnitude n f ≤ magnitude m e - gapBelow m e := by
  have unit := unit_pos e
  have gap : gapBelow m e ≤ 2 ^ e := by
    unfold gapBelow
    split <;> linarith
  rcases lt_trichotomy e f with above | rfl | below
  · exact absurd lt (a.lt_of_exponent_lt b above).not_gt
  · have next := (magnitude_le_iff e).mpr ((magnitude_lt_iff e).mp lt : n + 1 ≤ m)
    rw [magnitude_succ] at next
    linarith
  · -- The other magnitude has smaller units, and so it is not above the largest of those.
    have normal : 2 ^ 52 ≤ m := by
      have least := b.least
      exact a.normal.resolve_left (by omega)
    have small := b.small
    have half : (2 : Rat) ^ e = 2 ^ (e - 1) * 2 := by
      rw [zpow_sub_one₀ (by norm_num)]
      ring
    have largest : magnitude n f ≤ (2 ^ 53 - 1) * 2 ^ (e - 1) := by
      calc
        magnitude n f ≤ magnitude (2 ^ 53 - 1) f := (magnitude_le_iff f).mpr (by omega)
        _ ≤ (2 ^ 53 - 1) * 2 ^ (e - 1) := by
          rw [magnitude, Nat.cast_sub (by norm_num)]
          push_cast
          exact mul_le_mul_of_nonneg_left
            (zpow_le_zpow_right₀ (by norm_num) (by omega)) (by norm_num)
    unfold gapBelow
    split
    · rename_i power
      have value : magnitude m e = 2 ^ 52 * 2 ^ e := by
        rw [power, magnitude]
        norm_num
      rw [value, half]
      linarith
    · have next := (magnitude_le_iff e).mpr (by omega : 2 ^ 52 + 1 ≤ m)
      rw [magnitude_succ, magnitude, half] at next
      push_cast at next
      rw [half]
      linarith [unit_pos (e - 1)]

/-- A value that is strictly between the halves is nearest to the magnitude, and to no other one.
-/
theorem nearest_of_between (a : Canonical m e) (positive : 0 < m) {v : Rat}
    (low : magnitude (lowerQuarters m) (e - 2) < v)
    (high : v < magnitude (4 * m + 2) (e - 2))
    : Nearest v m e := by
  rw [magnitude_lowerQuarters positive] at low
  rw [magnitude_upperQuarters] at high
  have nearer {n : Nat} {f : Int} (b : Canonical n f) (other : magnitude n f ≠ magnitude m e)
      : |v - magnitude m e| < |v - magnitude n f| := by
    rcases lt_or_gt_of_ne other with below | above
    · have gap := a.le_sub_gapBelow b below
      rw [abs_of_pos (by linarith : 0 < v - magnitude n f), abs_lt]
      constructor <;> linarith
    · have next := a.succ_le b above
      rw [magnitude_succ] at next
      rw [abs_of_neg (by linarith [unit_pos e] : v - magnitude n f < 0), abs_lt]
      constructor <;> linarith
  refine ⟨a, fun n f b => ?_, fun n f b tie => ?_⟩
  · by_cases same : magnitude n f = magnitude m e
    · rw [same]
    · exact (nearer b same).le
  · by_contra different
    exact (nearer b (not_or.mp different).1).ne tie

end Canonical

end Calculator.Binary
