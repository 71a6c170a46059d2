import Calculator.Postfix.Evaluation
import Calculator.Proofs.Binary.Integral

/-! How an answer gets its 15 digits: it is scaled, rounded to a whole number, and scaled back,
each time to the nearest number.
-/

namespace Calculator

open Binary

/-- The number of units of the last digit in one. -/
def scale : Rat :=
  10 ^ 15

/-- The magnitude from which on a scaled number is too large to be rounded. -/
def cutOff : Rat :=
  9 * 10 ^ 15

theorem scale_pos
    : 0 < scale := by
  norm_num [scale]

theorem ofFloat?_scale
    : ∃ b, ofFloat? (.ofBits 0x430c6bf526340000) = some b
        ∧ b.negative = false ∧ b.significand ≠ 0 ∧ b.absolute = scale := by
  refine ⟨⟨false, 8 * 10 ^ 15, -3⟩, by decide +kernel, rfl, by norm_num, ?_⟩
  norm_num [absolute, magnitude, scale]

theorem ofFloat?_cutOff
    : ∃ b, ofFloat? (.ofBits 0x433ff973cafa8000) = some b
        ∧ b.negative = false ∧ b.absolute = cutOff := by
  refine ⟨⟨false, 9 * 10 ^ 15, 0⟩, by decide +kernel, rfl, ?_⟩
  norm_num [absolute, magnitude, cutOff]

--------------------------------------------------------------------------------
-- Scaled magnitudes
--------------------------------------------------------------------------------

/-- The magnitude `v` is scaled to the one of `n` and `f`, and that is rounded to `whole`, with
halves rounded up.
-/
structure Scales (v : Rat) (n : Nat) (f : Int) (whole : Nat) : Prop where
  nearest : Nearest (v * scale) n f
  small : magnitude n f < cutOff
  le : (whole : Rat) ≤ magnitude n f + 1 / 2
  lt : magnitude n f < whole + 1 / 2

namespace Scales

variable {v : Rat} {n : Nat} {f : Int} {whole : Nat}

/-- The whole number that an answer is divided from is exact. -/
theorem whole_lt (scales : Scales v n f whole)
    : whole < 2 ^ 53 := by
  have bound : (whole : Rat) < 2 ^ 53 := by
    have := scales.small
    norm_num [cutOff] at this
    linarith [scales.le]
  exact_mod_cast bound

/-- What is scaled back is far below the largest numbers. -/
theorem exponent_le {m : Nat} {e : Int} (scales : Scales v n f whole)
    (near : Nearest (whole / scale) m e)
    : e ≤ 971 := by
  have bound : (whole : Rat) < 2 ^ 53 := by exact_mod_cast scales.whole_lt
  have below : whole / scale ≤ 2 ^ (4 : Int) := by
    rw [div_le_iff₀ scale_pos]
    exact bound.le.trans (by norm_num [scale])
  have le := near.le_two_pow (by norm_num) below
  rcases near.canonical.exponent_lt (k := 5) (le.trans_lt (by norm_num)) with least | lt
  · omega
  · omega

end Scales

/-- Scaling rounds the exact product. -/
theorem scaled_eq_store {x : Float} {b : Binary} (finite : ofFloat? x = some b)
    : ∃ n f, Nearest (b.absolute * scale) n f
        ∧ x * .ofBits 0x430c6bf526340000 = store b.negative n f := by
  obtain ⟨unit, unit_eq, positive, _, value⟩ := ofFloat?_scale
  obtain ⟨n, f, nearest, product⟩ := mul_eq_store finite unit_eq
  rw [value] at nearest
  rw [positive, Bool.bne_false] at product
  exact ⟨n, f, nearest, product⟩

/-- A magnitude beyond the range is large. -/
theorem cutOff_le_of_overflow {n : Nat} {f : Int} (canonical : Canonical n f)
    (overflow : 971 < f)
    : cutOff ≤ magnitude n f := by
  have normal : 2 ^ 52 ≤ n := canonical.normal.resolve_left (by omega)
  calc
    cutOff ≤ 2 ^ (53 : Int) := by norm_num [cutOff]
    _ ≤ 2 ^ (f + 52) := zpow_le_zpow_right₀ (by norm_num) (by omega)
    _ ≤ magnitude n f := le_magnitude_of_le normal f

/-- A scaled number is rounded if its magnitude is below the limit. -/
theorem isSmall_store (negative : Bool) {n : Nat} {f : Int} (canonical : Canonical n f)
    : ((store negative n f).isFinite
        && decide ((store negative n f).abs < .ofBits 0x433ff973cafa8000)) = true
      ↔ magnitude n f < cutOff := by
  rw [Bool.and_eq_true, decide_eq_true_iff, isFinite_eq]
  by_cases range : f ≤ 971
  · obtain ⟨limit, limit_eq, positive, value⟩ := ofFloat?_cutOff
    have scaled := ofFloat?_store negative canonical range
    have unsigned := ofFloat?_store false canonical range
    rw [abs_eq_store scaled, lt_iff_of_positive unsigned limit_eq rfl positive, value, scaled]
    exact and_iff_right rfl
  · have large := cutOff_le_of_overflow canonical (not_le.mp range)
    rw [ofFloat?_store_of_overflow negative canonical (not_le.mp range)]
    exact iff_of_false (fun both => Bool.noConfusion both.1) large.not_gt

/-- A scaled number is rounded to a whole one, which is scaled back. -/
theorem scaledBack_eq_store {v : Rat} {n : Nat} {f : Int} (negative : Bool)
    (scales : Scales v n f (wholeMagnitude n f))
    : ∃ m e, Nearest (wholeMagnitude n f / scale) m e
        ∧ roundHalfAway (store negative n f) / .ofBits 0x430c6bf526340000
          = store negative m e := by
  obtain ⟨unit, unit_eq, positive, nonzero, value⟩ := ofFloat?_scale
  have canonical := scales.nearest.canonical
  have small_exponent {k : Nat} {g : Int} (whole : Canonical k g)
      (small : magnitude k g < 2 ^ (53 : Int)) : g ≤ 971 := by
    rcases whole.exponent_lt small with least | lt
    · omega
    · omega
  have range : f ≤ 971 := by
    by_contra overflow
    exact scales.small.not_ge (cutOff_le_of_overflow canonical (not_le.mp overflow))
  obtain ⟨k, g, whole, whole_value, rounds⟩ :=
    roundHalfAway_eq_store (ofFloat?_store negative canonical range) scales.whole_lt
  have whole_range : g ≤ 971 := by
    refine small_exponent whole ?_
    rw [whole_value]
    exact_mod_cast scales.whole_lt
  obtain ⟨m, e, nearest, quotient⟩ :=
    div_eq_store (ofFloat?_store negative whole whole_range) unit_eq nonzero
  have dividend : absolute ⟨negative, k, g⟩ = wholeMagnitude n f := whole_value
  rw [dividend, value] at nearest
  rw [rounds, quotient, positive, Bool.bne_false]
  exact ⟨m, e, nearest, rfl⟩

--------------------------------------------------------------------------------
-- The answer
--------------------------------------------------------------------------------

/-- The number, with the sign of a zero dropped. -/
def signless (x : Float) : Float :=
  if x == 0 then 0 else x

theorem signless_of_ne_zero {x : Float} {b : Binary} (finite : ofFloat? x = some b)
    (nonzero : b.significand ≠ 0)
    : signless x = x :=
  if_neg (mt (beq_zero_iff finite).mp nonzero)

theorem signless_store (negative : Bool) {m : Nat} {e : Int} (canonical : Canonical m e)
    (range : e ≤ 971)
    : signless (store negative m e) = if m = 0 then 0 else store negative m e :=
  if_congr (beq_zero_iff (ofFloat?_store negative canonical range)) rfl rfl

/-- The rounding of answers with its constants written out. -/
theorem roundAnswer_eq (x : Float)
    : roundAnswer x
      = signless
          (if (x * .ofBits 0x430c6bf526340000).isFinite
              && (x * .ofBits 0x430c6bf526340000).abs < .ofBits 0x433ff973cafa8000 then
            roundHalfAway (x * .ofBits 0x430c6bf526340000) / .ofBits 0x430c6bf526340000
          else
            x) :=
  rfl

/-- What is no finite number stays as it is. -/
theorem roundAnswer_of_none {x : Float} (special : ofFloat? x = none)
    : roundAnswer x = x := by
  have scaled : (x * .ofBits 0x430c6bf526340000).isFinite = false := by
    rw [isFinite_eq, mul_of_none _ special]
    rfl
  rw [roundAnswer_eq, scaled, Bool.false_and, if_neg Bool.false_ne_true, signless,
    beq_zero_of_none special, if_neg Bool.false_ne_true]

/-- The answer of a number: the number itself if it is large, or what it is scaled to and back,
without the sign of a zero.
-/
theorem roundAnswer_cases {x : Float} {b : Binary} (finite : ofFloat? x = some b)
    : (∃ n f, Nearest (b.absolute * scale) n f ∧ cutOff ≤ magnitude n f ∧ roundAnswer x = x)
      ∨ ∃ n f whole m e, Scales b.absolute n f whole ∧ Nearest (whole / scale) m e
          ∧ roundAnswer x = if m = 0 then 0 else store b.negative m e := by
  obtain ⟨n, f, nearest, product⟩ := scaled_eq_store finite
  have answer
      : roundAnswer x
        = signless
            (if magnitude n f < cutOff then
              roundHalfAway (store b.negative n f) / .ofBits 0x430c6bf526340000
            else
              x) := by
    have isSmall := isSmall_store b.negative nearest.canonical
    rw [← product] at isSmall ⊢
    rw [roundAnswer_eq]
    exact congrArg signless (if_congr isSmall rfl rfl)
  rcases lt_or_ge (magnitude n f) cutOff with small | large
  · right
    have bounds := wholeMagnitude_bounds n f
    have scales : Scales b.absolute n f (wholeMagnitude n f) :=
      ⟨nearest, small, bounds.1, bounds.2⟩
    obtain ⟨m, e, near, quotient⟩ := scaledBack_eq_store b.negative scales
    rw [if_pos small, quotient,
      signless_store b.negative near.canonical (scales.exponent_le near)] at answer
    exact ⟨n, f, _, m, e, scales, near, answer⟩
  · left
    have nonzero : b.significand ≠ 0 := by
      intro zero
      rw [absolute_eq_zero zero, zero_mul] at nearest
      obtain ⟨rfl, rfl⟩ := nearest.unique nearest_zero
      norm_num [cutOff, magnitude] at large
    rw [if_neg large.not_gt, signless_of_ne_zero finite nonzero] at answer
    exact ⟨n, f, nearest, large, answer⟩

end Calculator
