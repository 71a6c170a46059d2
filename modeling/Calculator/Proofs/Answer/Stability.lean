import Calculator.Proofs.Answer.Decimals

/-! Which answers are rounded to themselves. Below four the units are so small that scaling an
answer finds the whole number it came from, and from eight on they are so large that another
whole number is scaled back to the same answer. In between, a scaled answer has units of one
half up to `2 ^ 52`, and one that is stored more than a quarter above its whole number is scaled
to the half above, and rounded to the next one.
-/

namespace Calculator

open Binary

variable {n m m' : Nat} {f e e' : Int} {whole whole' : Nat}

/-- An exact magnitude that is not rounded to itself when it is an answer. -/
def Drifting (v : Rat) : Prop :=
  4 ≤ v ∧ v * scale < 2 ^ 52 ∧ 1 / 4 < Int.fract (v * scale) ∧ Int.fract (v * scale) < 1 / 2

/-- An answer below `2 ^ k` is this close to the whole number that was scaled back. -/
theorem error_le (near : Nearest (whole / scale) m e) {k : Int} (normal : -1021 ≤ k)
    (below : magnitude m e < 2 ^ k)
    : |magnitude m e * scale - whole| ≤ 2 ^ (k - 53) / 2 * scale := by
  have unit : (2 : Rat) ^ e ≤ 2 ^ (k - 53) := by
    refine zpow_le_zpow_right₀ (by norm_num) ?_
    rcases near.canonical.exponent_lt below with least | lt
    · omega
    · omega
  have nonneg : 0 ≤ whole / scale := div_nonneg (Nat.cast_nonneg _) scale_pos.le
  have scaled : magnitude m e * scale - whole = -(whole / scale - magnitude m e) * scale := by
    rw [neg_sub, sub_mul, div_mul_cancel₀ _ scale_pos.ne']
  rw [scaled, abs_mul, abs_neg, abs_of_pos scale_pos]
  have distance := near.distance_le nonneg
  exact mul_le_mul_of_nonneg_right (by linarith) scale_pos.le

theorem error_lt_quarter (near : Nearest (whole / scale) m e) (below : magnitude m e < 4)
    : |magnitude m e * scale - whole| < 1 / 4 :=
  (error_le near (k := 2) (by norm_num) (below.trans_le (by norm_num))).trans_lt
    (by norm_num [scale])

theorem error_lt_half (near : Nearest (whole / scale) m e) (below : magnitude m e < 8)
    : |magnitude m e * scale - whole| < 1 / 2 :=
  (error_le near (k := 3) (by norm_num) (below.trans_le (by norm_num))).trans_lt
    (by norm_num [scale])

--------------------------------------------------------------------------------
-- Scaling an answer
--------------------------------------------------------------------------------

namespace Scales

variable {v : Rat}

/-- Scaling is as close as the whole numbers are. -/
theorem distance_le (scales : Scales v n f whole') (small : whole < 2 ^ 53)
    : |v * scale - magnitude n f| ≤ |v * scale - whole| := by
  obtain ⟨k, g, canonical, value⟩ := exists_canonical_whole small
  rw [← value]
  exact scales.nearest.le k g canonical

theorem close (scales : Scales v n f whole') (small : whole < 2 ^ 53)
    : |magnitude n f - whole| ≤ 2 * |v * scale - whole| := by
  have distance := scales.distance_le small
  have triangle := abs_sub_le (magnitude n f) (v * scale) whole
  rw [abs_sub_comm (magnitude n f) (v * scale)] at triangle
  linarith

/-- The whole number that a scaled magnitude is rounded to. -/
theorem whole_eq (scales : Scales v n f whole') (low : (whole : Rat) - 1 / 2 ≤ magnitude n f)
    (high : magnitude n f < whole + 1 / 2)
    : whole' = whole := by
  have le : (whole' : Rat) < whole + 1 := by linarith [scales.le]
  have ge : (whole : Rat) < whole' + 1 := by linarith [scales.lt]
  norm_cast at le ge
  omega

/-- From `2 ^ 52` on scaled magnitudes are whole. -/
theorem exists_whole (scales : Scales v n f whole') (large : 2 ^ 52 ≤ v * scale)
    : 0 ≤ f ∧ magnitude n f = whole' := by
  have ge := scales.nearest.two_pow_le (k := 52) (by norm_num) large
  have units := scales.nearest.canonical.le_exponent ge
  obtain ⟨j, same⟩ := Binary.exists_whole n units
  have rounded : whole' = j := scales.whole_eq (by linarith) (by linarith)
  exact ⟨units, by rw [same, rounded]⟩

/-- From `2 ^ 51` on scaled magnitudes count halves. -/
theorem exists_halves (scales : Scales v n f whole') (large : 2 ^ 51 ≤ v * scale)
    : ∃ j : Nat, magnitude n f = j / 2 ∧ (n % 2 = 0 → j % 2 = 0) := by
  have ge := scales.nearest.two_pow_le (k := 51) (by norm_num) large
  have units : -1 ≤ f := scales.nearest.canonical.le_exponent ge
  refine ⟨n * 2 ^ (f - -1).toNat, ?_, fun even => ?_⟩
  · rw [magnitude_shift_of_le n units, magnitude, zpow_neg_one, ← div_eq_mul_inv]
  · rw [Nat.mul_mod, even, zero_mul, Nat.zero_mod]

end Scales

--------------------------------------------------------------------------------
-- Answers by their magnitude
--------------------------------------------------------------------------------

/-- Below four, the quotient of a whole number leads back to it. -/
theorem whole_eq_of_lt_four (near : Nearest (whole / scale) m e) (small : whole < 2 ^ 53)
    (scales : Scales (magnitude m e) n f whole') (below : magnitude m e < 4)
    : whole' = whole := by
  have error := error_lt_quarter near below
  have close := scales.close small
  obtain ⟨above, below⟩ := abs_sub_lt_iff.mp (show |magnitude n f - whole| < 1 / 2 by linarith)
  exact scales.whole_eq (by linarith) (by linarith)

/-- A quotient of a whole number that is scaled up again comes back to it. Witness: both roundings
together move it by less than one, so the two whole numbers are equal.
-/
theorem whole_eq_of_whole (near : Nearest (whole / scale) m e) (small : whole < 2 ^ 53)
    (scales : Scales (magnitude m e) n f whole') (below : magnitude m e < 8)
    (large : 2 ^ 52 ≤ magnitude m e * scale)
    : whole' = whole := by
  have error := error_lt_half near below
  have close := scales.close small
  rw [(scales.exists_whole large).2] at close
  obtain ⟨above, below⟩ := abs_sub_lt_iff.mp (show |(whole' : Rat) - whole| < 1 by linarith)
  have le : (whole' : Rat) < whole + 1 := by linarith
  have ge : (whole : Rat) < whole' + 1 := by linarith
  norm_cast at le ge
  omega

/-- Where halves are counted, the nearest one to an answer is not above its whole number, as
long as the answer is at most a quarter above. At a quarter the whole number is the even one.
-/
theorem whole_eq_of_halves (near : Nearest (whole / scale) m e) (small : whole < 2 ^ 53)
    (scales : Scales (magnitude m e) n f whole') (four : 4 ≤ magnitude m e)
    (below : magnitude m e * scale < 2 ^ 52) (steady : ¬ Drifting (magnitude m e))
    : whole' = whole := by
  have eight : magnitude m e < 8 := by
    norm_num [scale] at below
    linarith
  have large : 2 ^ 51 ≤ magnitude m e * scale := by
    norm_num [scale]
    linarith
  have error := error_lt_half near eight
  obtain ⟨j, halves, parity⟩ := scales.exists_halves large
  obtain ⟨above, under⟩ := abs_sub_lt_iff.mp error
  have distance := scales.distance_le small
  have close := scales.close small
  have low : (whole : Rat) - 1 / 2 ≤ magnitude n f := by
    obtain ⟨_, upper⟩ := abs_sub_lt_iff.mp (show |magnitude n f - whole| < 1 by linarith)
    rw [halves] at upper ⊢
    have next : (2 * whole : Rat) < j + 2 := by linarith
    have whole_halves : 2 * whole < j + 2 := by exact_mod_cast next
    have previous : (2 * whole : Rat) ≤ j + 1 := by exact_mod_cast Nat.le_of_lt_succ whole_halves
    linarith
  refine scales.whole_eq low ?_
  by_contra not_high
  have high := not_lt.mp not_high
  rw [abs_sub_comm, abs_of_nonneg (by linarith)] at distance
  rcases abs_cases (magnitude m e * scale - whole) with ⟨positive, nonneg⟩ | ⟨negative, _⟩
  · rw [positive] at distance
    have fract : Int.fract (magnitude m e * scale) = magnitude m e * scale - whole := by
      rw [Int.fract_eq_iff]
      exact ⟨nonneg, by linarith, whole, by push_cast; ring⟩
    have quarter : magnitude m e * scale - whole = 1 / 4 := by
      refine le_antisymm (not_lt.mp fun more => steady ?_) (by linarith)
      exact ⟨four, below, by rw [fract]; exact more, by rw [fract]; exact above⟩
    have half : magnitude n f = whole + 1 / 2 := le_antisymm (by linarith) high
    obtain ⟨k, g, canonical, value⟩ := exists_canonical_whole small
    have tie
        : |magnitude m e * scale - magnitude n f| = |magnitude m e * scale - magnitude k g| := by
      rw [value, positive, half, quarter, abs_of_nonpos (by linarith)]
      linarith
    -- The half above the whole number is odd, so the tie does not go there.
    rcases scales.nearest.even k g canonical tie with same | even
    · rw [value, half] at same
      linarith
    · have odd : j = 2 * whole + 1 := by
        have : (j : Rat) = 2 * whole + 1 := by linarith
        exact_mod_cast this
      have := parity even
      omega
  · rw [negative] at distance
    linarith

/-- The whole number of a drifting answer is the one below it. -/
theorem floor_of_drifting (near : Nearest (whole / scale) m e)
    (drifting : Drifting (magnitude m e))
    : Int.fract (magnitude m e * scale) = magnitude m e * scale - whole := by
  obtain ⟨four, below, more, less⟩ := drifting
  have eight : magnitude m e < 8 := by
    norm_num [scale] at below
    linarith
  obtain ⟨above, under⟩ := abs_sub_lt_iff.mp (error_lt_half near eight)
  have split := Int.self_sub_floor (magnitude m e * scale)
  have floor : ⌊magnitude m e * scale⌋ = whole := by
    have le : (⌊magnitude m e * scale⌋ : Rat) < whole + 1 := by linarith
    have ge : (whole : Rat) < ⌊magnitude m e * scale⌋ + 1 := by linarith
    norm_cast at le ge
    omega
  rw [floor] at split
  exact split.symm

/-- A drifting answer is scaled to the half above, and rounded to the next whole number. -/
theorem whole_eq_succ (near : Nearest (whole / scale) m e)
    (scales : Scales (magnitude m e) n f whole') (drifting : Drifting (magnitude m e))
    : whole' = whole + 1 := by
  have fract := floor_of_drifting near drifting
  obtain ⟨four, below, more, less⟩ := drifting
  rw [fract] at more less
  have large : 2 ^ 51 ≤ magnitude m e * scale := by
    norm_num [scale]
    linarith
  obtain ⟨j, halves, -⟩ := scales.exists_halves large
  have small : 2 * whole + 1 < 2 ^ 53 := by
    have : (whole : Rat) < 2 ^ 52 := by linarith
    have : whole < 2 ^ 52 := by exact_mod_cast this
    omega
  obtain ⟨k, g, canonical, value⟩ := exists_canonical (k := -1) small (by norm_num)
  have half : magnitude k g = whole + 1 / 2 := by
    rw [value, magnitude]
    push_cast
    ring
  have distance := scales.nearest.le k g canonical
  rw [half, abs_of_nonpos (by linarith : magnitude m e * scale - (whole + 1 / 2) ≤ 0)] at distance
  obtain ⟨lower, upper⟩ := abs_sub_lt_iff.mp
    (show |magnitude m e * scale - magnitude n f| < 1 / 4 by linarith)
  have j_low : (2 * whole : Rat) < j := by linarith
  have j_high : (j : Rat) < 2 * whole + 2 := by linarith
  norm_cast at j_low j_high
  have odd : (j : Rat) = 2 * whole + 1 := by
    exact_mod_cast (by omega : j = 2 * whole + 1)
  refine scales.whole_eq ?_ ?_
  · push_cast
    linarith
  · push_cast
    linarith

/-- An answer of at least eight is scaled to a whole number that is scaled back to it. -/
theorem same_of_ge_eight (near : Nearest (whole / scale) m e)
    (scales : Scales (magnitude m e) n f whole') (near' : Nearest (whole' / scale) m' e')
    (eight : 8 ≤ magnitude m e)
    : m' = m ∧ e' = e := by
  have large : 2 ^ 52 ≤ magnitude m e * scale := by
    norm_num [scale]
    linarith
  obtain ⟨units, whole_value⟩ := scales.exists_whole large
  have one : f = 0 := by
    have small : magnitude n f < 2 ^ (53 : Int) := scales.small.trans (by norm_num [cutOff])
    rcases scales.nearest.canonical.exponent_lt small with least | lt
    · omega
    · omega
  have half := scales.nearest.distance_le (le_trans (by norm_num) large)
  rw [one, zpow_zero, ← one, whole_value] at half
  have moved : |whole' / scale - magnitude m e| ≤ 1 / 2 / scale := by
    have back : whole' / scale - magnitude m e = -(magnitude m e * scale - whole') / scale := by
      rw [neg_sub, sub_div, mul_div_cancel_right₀ _ scale_pos.ne']
    rw [back, abs_div, abs_neg, abs_of_pos scale_pos]
    exact div_le_div_of_nonneg_right half scale_pos.le
  have nearer := near'.le m e near.canonical
  have triangle := abs_sub_le (magnitude m' e') (whole' / scale) (magnitude m e)
  rw [abs_sub_comm (magnitude m' e') (whole' / scale)] at triangle
  have unit : 1 / 2 / scale + 1 / 2 / scale < 2 ^ ((3 : Int) - 52) := by norm_num [scale]
  have close : |magnitude m' e' - magnitude m e| < 2 ^ ((3 : Int) - 52) :=
    calc
      _ ≤ |whole' / scale - magnitude m' e'| + |whole' / scale - magnitude m e| := triangle
      _ ≤ 1 / 2 / scale + 1 / 2 / scale := add_le_add (nearer.trans moved) moved
      _ < 2 ^ ((3 : Int) - 52) := unit
  -- Below eight the units are smaller, so it matters that rounding does not cross eight.
  have whole_ge : (8 * 10 ^ 15 : Rat) ≤ whole' := by
    have scaled : 8 * 10 ^ 15 ≤ magnitude m e * scale :=
      mul_le_mul_of_nonneg_right eight scale_pos.le
    have above : ((8 * 10 ^ 15 : Nat) : Rat) < whole' + 1 := by
      push_cast
      linarith [(abs_sub_le_iff.mp half).1]
    exact_mod_cast Nat.le_of_lt_succ (by exact_mod_cast above)
  have ge : 2 ^ (3 : Int) ≤ magnitude m' e' := by
    refine near'.two_pow_le (by norm_num) ?_
    rw [le_div_iff₀ scale_pos]
    refine le_trans ?_ whole_ge
    norm_num [scale]
  have eight : 2 ^ (3 : Int) ≤ magnitude m e := le_trans (by norm_num) eight
  exact near'.canonical.eq_of_close near.canonical ge eight close

/-- An answer is rounded to itself exactly if it is not drifting. Witness: a drifting one comes
from the whole number below it, and would have to come from the next one too.
-/
theorem same_iff_not_drifting (near : Nearest (whole / scale) m e) (small : whole < 2 ^ 53)
    (scales : Scales (magnitude m e) n f whole') (near' : Nearest (whole' / scale) m' e')
    : (m' = m ∧ e' = e) ↔ ¬ Drifting (magnitude m e) := by
  have of_whole (same : whole' = whole) : m' = m ∧ e' = e := by
    rw [same] at near'
    exact near'.unique near
  constructor
  · intro same drifting
    obtain ⟨rfl, rfl⟩ := same
    have here := floor_of_drifting near drifting
    have there := floor_of_drifting near' drifting
    rw [whole_eq_succ near scales drifting, here] at there
    push_cast at there
    linarith
  · intro steady
    rcases lt_or_ge (magnitude m e) 4 with below | four
    · exact of_whole (whole_eq_of_lt_four near small scales below)
    · rcases lt_or_ge (magnitude m e) 8 with below | eight
      · rcases lt_or_ge (magnitude m e * scale) (2 ^ 52) with halves | whole
        · exact of_whole (whole_eq_of_halves near small scales four halves steady)
        · exact of_whole (whole_eq_of_whole near small scales below whole)
      · exact same_of_ge_eight near scales near' eight

end Calculator
