import Mathlib.Algebra.Order.AbsoluteValue.Basic
import Mathlib.Data.Rat.Cast.Order
import Mathlib.Tactic.Linarith
import Mathlib.Tactic.Ring
import Calculator.Binary.Basic

/-! The magnitudes that binary64 numbers have, and which of them is nearest to an exact one.
There is no largest exponent here: a magnitude beyond the range still has a nearest one, by
which its overflow is decided.
-/

namespace Calculator.Binary

/-- The exact magnitude of a significand with its exponent. -/
def magnitude (significand : Nat) (exponent : Int) : Rat :=
  significand * 2 ^ exponent

/-- The significand is as long as the exponent allows. Each magnitude has at most one such
representation.
-/
structure Canonical (significand : Nat) (exponent : Int) : Prop where
  small : significand < 2 ^ 53
  least : -1074 ≤ exponent
  normal : exponent = -1074 ∨ 2 ^ 52 ≤ significand

theorem unit_pos (e : Int)
    : (0 : Rat) < 2 ^ e :=
  zpow_pos (by norm_num) e

theorem magnitude_nonneg (m : Nat) (e : Int)
    : 0 ≤ magnitude m e :=
  mul_nonneg (Nat.cast_nonneg m) (unit_pos e).le

theorem magnitude_succ (m : Nat) (e : Int)
    : magnitude (m + 1) e = magnitude m e + 2 ^ e := by
  simp [magnitude, add_mul]

theorem magnitude_le_iff {m n : Nat} (e : Int)
    : magnitude m e ≤ magnitude n e ↔ m ≤ n := by
  rw [magnitude, magnitude, mul_le_mul_iff_left₀ (unit_pos e), Nat.cast_le]

theorem magnitude_lt_iff {m n : Nat} (e : Int)
    : magnitude m e < magnitude n e ↔ m < n := by
  rw [magnitude, magnitude, mul_lt_mul_iff_left₀ (unit_pos e), Nat.cast_lt]

/-- A magnitude counted in its own units. -/
theorem magnitude_div_unit (m : Nat) (e : Int)
    : magnitude m e / 2 ^ e = m :=
  mul_div_cancel_right₀ _ (unit_pos e).ne'

theorem magnitude_mul (m n : Nat) (e f : Int)
    : magnitude m e * magnitude n f = magnitude (m * n) (e + f) := by
  rw [magnitude, magnitude, magnitude, zpow_add₀ (by norm_num)]
  push_cast
  ring

/-- The same magnitude in smaller units. -/
theorem magnitude_shift (m s : Nat) (e : Int)
    : magnitude (m * 2 ^ s) e = magnitude m (e + s) := by
  rw [magnitude, magnitude, zpow_add₀ (by norm_num), zpow_natCast]
  push_cast
  ring

theorem magnitude_shift_of_le (m : Nat) {e f : Int} (le : e ≤ f)
    : magnitude m f = magnitude (m * 2 ^ (f - e).toNat) e := by
  rw [magnitude_shift]
  congr 1
  omega

/-- A significand below `2 ^ k` stays below one unit that is `k` places higher. -/
theorem magnitude_lt_of_lt {m k : Nat} (small : m < 2 ^ k) (e : Int)
    : magnitude m e < 2 ^ (e + k) := by
  have bound : (m : Rat) < 2 ^ k := by exact_mod_cast small
  rw [zpow_add₀ (by norm_num), zpow_natCast, mul_comm]
  exact mul_lt_mul_of_pos_right bound (unit_pos e)

theorem le_magnitude_of_le {m k : Nat} (large : 2 ^ k ≤ m) (e : Int)
    : 2 ^ (e + k) ≤ magnitude m e := by
  have bound : (2 : Rat) ^ k ≤ m := by exact_mod_cast large
  rw [zpow_add₀ (by norm_num), zpow_natCast, mul_comm]
  exact mul_le_mul_of_nonneg_right bound (unit_pos e).le

--------------------------------------------------------------------------------
-- Neighbours
--------------------------------------------------------------------------------

namespace Canonical

variable {m n : Nat} {e f : Int}

/-- A magnitude in larger units is not below the one that has no smaller units to spare. -/
theorem lt_of_exponent_lt (a : Canonical m e) (b : Canonical n f) (lt : e < f)
    : magnitude m e < magnitude n f := by
  have normal : 2 ^ 52 ≤ n := by
    rcases b.normal with least | normal
    · have := a.least
      omega
    · exact normal
  calc
    magnitude m e < 2 ^ (e + 53) := magnitude_lt_of_lt a.small e
    _ ≤ 2 ^ (f + 52) := zpow_le_zpow_right₀ (by norm_num) (by omega)
    _ ≤ magnitude n f := le_magnitude_of_le normal f

/-- Between a magnitude and the next one by its own unit there is no other one. -/
theorem succ_le (a : Canonical m e) (b : Canonical n f) (lt : magnitude m e < magnitude n f)
    : magnitude (m + 1) e ≤ magnitude n f := by
  rcases lt_or_ge f e with below | above
  · exact absurd (b.lt_of_exponent_lt a below) lt.not_gt
  · rw [magnitude_shift_of_le n above] at lt ⊢
    rw [magnitude_lt_iff] at lt
    rw [magnitude_le_iff]
    exact lt

/-- A magnitude has one canonical form. -/
theorem unique (a : Canonical m e) (b : Canonical n f) (same : magnitude m e = magnitude n f)
    : m = n ∧ e = f := by
  have exponents : e = f := by
    rcases lt_trichotomy e f with below | same | above
    · exact absurd same (a.lt_of_exponent_lt b below).ne
    · exact same
    · exact absurd same (b.lt_of_exponent_lt a above).ne'
  subst exponents
  refine ⟨Nat.le_antisymm ?_ ?_, rfl⟩
  · exact (magnitude_le_iff e).mp same.le
  · exact (magnitude_le_iff e).mp same.ge

/-- The next magnitude. A full significand, which is odd, is carried over to the next exponent.
-/
theorem exists_succ (a : Canonical m e)
    : ∃ n f, Canonical n f ∧ magnitude n f = magnitude (m + 1) e ∧ (m % 2 = 0 → n % 2 = 1) := by
  have small := a.small
  have least := a.least
  by_cases full : m + 1 = 2 ^ 53
  · refine ⟨2 ^ 52, e + 1, ⟨by norm_num, by omega, .inr le_rfl⟩, ?_, by omega⟩
    have carried := magnitude_shift (2 ^ 52) 1 e
    rw [full, show 2 ^ 53 = 2 ^ 52 * 2 ^ 1 by norm_num, carried, Nat.cast_one]
  · refine ⟨m + 1, e, ⟨by omega, least, ?_⟩, rfl, by omega⟩
    exact a.normal.imp_right fun normal => by omega

/-- The magnitude before, which is at most one unit below. -/
theorem exists_pred (a : Canonical m e) (positive : 0 < m)
    : ∃ n f, Canonical n f ∧ magnitude n f < magnitude m e
        ∧ magnitude m e ≤ magnitude n f + 2 ^ e := by
  have small := a.small
  have least := a.least
  by_cases carried : m = 2 ^ 52 ∧ e ≠ -1074
  · obtain ⟨rfl, above⟩ := carried
    have halves := magnitude_shift (2 ^ 52) 1 (e - 1)
    rw [Nat.cast_one, sub_add_cancel] at halves
    have next := magnitude_succ (2 ^ 53 - 1) (e - 1)
    rw [show 2 ^ 53 - 1 + 1 = 2 ^ 52 * 2 ^ 1 by norm_num, halves] at next
    have unit : (2 : Rat) ^ (e - 1) ≤ 2 ^ e := zpow_le_zpow_right₀ (by norm_num) (by omega)
    refine ⟨2 ^ 53 - 1, e - 1, ⟨by norm_num, by omega, .inr (by norm_num)⟩, ?_, ?_⟩
    · linarith [unit_pos (e - 1)]
    · linarith
  · have next := magnitude_succ (m - 1) e
    rw [Nat.sub_add_cancel positive] at next
    refine ⟨m - 1, e, ⟨by omega, least, ?_⟩, ?_, next.le⟩
    · rcases a.normal with smallest | normal
      · exact .inl smallest
      · rcases eq_or_ne m (2 ^ 52) with same | other
        · exact .inl (not_not.mp fun above => carried ⟨same, above⟩)
        · right
          omega
    · linarith [unit_pos e]

/-- A magnitude of at least `2 ^ k` has units of at least `2 ^ (k - 52)`. -/
theorem le_exponent (a : Canonical m e) {k : Int} (le : 2 ^ k ≤ magnitude m e)
    : k - 52 ≤ e := by
  have lt := le.trans_lt (magnitude_lt_of_lt a.small e)
  have := (zpow_lt_zpow_iff_right₀ (by norm_num : (1 : Rat) < 2)).mp lt
  omega

/-- A magnitude below `2 ^ k` has units below `2 ^ (k - 52)`, if it is not among the least. -/
theorem exponent_lt (a : Canonical m e) {k : Int} (lt : magnitude m e < 2 ^ k)
    : e = -1074 ∨ e < k - 52 := by
  refine a.normal.imp_right fun normal => ?_
  have lt := (le_magnitude_of_le normal e).trans_lt lt
  have := (zpow_lt_zpow_iff_right₀ (by norm_num : (1 : Rat) < 2)).mp lt
  omega

/-- Magnitudes of at least `2 ^ k` that are less than their units apart are the same. -/
theorem eq_of_close (a : Canonical m e) (b : Canonical n f) {k : Int}
    (a_le : 2 ^ k ≤ magnitude m e) (b_le : 2 ^ k ≤ magnitude n f)
    (close : |magnitude m e - magnitude n f| < 2 ^ (k - 52))
    : m = n ∧ e = f := by
  have a_unit : (2 : Rat) ^ (k - 52) ≤ 2 ^ e :=
    zpow_le_zpow_right₀ (by norm_num) (a.le_exponent a_le)
  have b_unit : (2 : Rat) ^ (k - 52) ≤ 2 ^ f :=
    zpow_le_zpow_right₀ (by norm_num) (b.le_exponent b_le)
  obtain ⟨below, above⟩ := abs_sub_lt_iff.mp close
  refine a.unique b ?_
  rcases lt_trichotomy (magnitude m e) (magnitude n f) with less | same | greater
  · have next := a.succ_le b less
    rw [magnitude_succ] at next
    linarith
  · exact same
  · have next := b.succ_le a greater
    rw [magnitude_succ] at next
    linarith

end Canonical

theorem canonical_two_pow {k : Int} (least : -1022 ≤ k)
    : Canonical (2 ^ 52) (k - 52) :=
  ⟨by norm_num, by omega, .inr le_rfl⟩

/-- The canonical form of a power of two. -/
theorem magnitude_two_pow (k : Int)
    : magnitude (2 ^ 52) (k - 52) = 2 ^ k := by
  have shifted := magnitude_shift 1 52 (k - 52)
  rw [one_mul] at shifted
  rw [shifted, magnitude, Nat.cast_one, one_mul]
  congr 1
  norm_num

/-- A significand of up to 53 digits has a canonical form, if its units are not too small. -/
theorem exists_canonical {n : Nat} {k : Int} (small : n < 2 ^ 53) (least : -1074 ≤ k)
    : ∃ m e, Canonical m e ∧ magnitude m e = magnitude n k := by
  induction h : (k + 1074).toNat generalizing n k with
  | zero =>
      have same : k = -1074 := by omega
      exact ⟨n, k, ⟨small, least, .inl same⟩, rfl⟩
  | succ spare ih =>
      by_cases normal : 2 ^ 52 ≤ n
      · exact ⟨n, k, ⟨small, least, .inr normal⟩, rfl⟩
      · have shifted := magnitude_shift n 1 (k - 1)
        obtain ⟨m, e, canonical, same⟩ :=
          ih (n := n * 2 ^ 1) (k := k - 1) (by omega) (by omega) (by omega)
        refine ⟨m, e, canonical, same.trans (shifted.trans ?_)⟩
        rw [Nat.cast_one, sub_add_cancel]

--------------------------------------------------------------------------------
-- The nearest magnitude
--------------------------------------------------------------------------------

/-- No magnitude is nearer to `v`, and if another one is as near then the significand is even.
-/
structure Nearest (v : Rat) (m : Nat) (e : Int) : Prop where
  canonical : Canonical m e
  le : ∀ n f, Canonical n f → |v - magnitude m e| ≤ |v - magnitude n f|
  even
    : ∀ n f, Canonical n f → |v - magnitude m e| = |v - magnitude n f|
      → magnitude n f = magnitude m e ∨ m % 2 = 0

/-- Two nearest magnitudes would have a magnitude between them or an odd significand. -/
theorem Nearest.magnitude_le {v : Rat} {m n : Nat} {e f : Int} (a : Nearest v m e)
    (b : Nearest v n f)
    : magnitude n f ≤ magnitude m e := by
  by_contra greater
  have lt := not_le.mp greater
  have tie := le_antisymm (a.le n f b.canonical) (b.le m e a.canonical)
  have middle : v - magnitude m e = magnitude n f - v := by
    rcases abs_eq_abs.mp tie with same | opposite
    · linarith
    · linarith
  -- The value is in the middle, and so the neighbour above the lower one is the upper one.
  obtain ⟨k, g, next, value, parity⟩ := a.canonical.exists_succ
  have above : magnitude m e < magnitude k g := by
    rw [value, magnitude_succ]
    linarith [unit_pos e]
  have below : magnitude k g ≤ magnitude n f := by
    rw [value]
    exact a.canonical.succ_le b.canonical lt
  have farther := b.le k g next
  rw [abs_of_nonpos (by linarith : v - magnitude n f ≤ 0)] at farther
  have adjacent : magnitude k g = magnitude n f := by
    rcases abs_cases (v - magnitude k g) with ⟨distance, _⟩ | ⟨distance, _⟩
    · rw [distance] at farther
      linarith
    · rw [distance] at farther
      linarith
  obtain ⟨rfl, rfl⟩ := next.unique b.canonical adjacent
  have m_even := (a.even k g next tie).resolve_left above.ne'
  have k_even := (b.even m e a.canonical tie.symm).resolve_left above.ne
  have k_odd := parity m_even
  omega

theorem Nearest.unique {v : Rat} {m n : Nat} {e f : Int} (a : Nearest v m e)
    (b : Nearest v n f)
    : m = n ∧ e = f :=
  a.canonical.unique b.canonical
    (le_antisymm (b.magnitude_le a) (a.magnitude_le b))

namespace Nearest

variable {v : Rat} {m n : Nat} {e f : Int}

/-- Rounding does not cross a magnitude. -/
theorem le_of_le (near : Nearest v m e) (other : Canonical n f) (le : v ≤ magnitude n f)
    : magnitude m e ≤ magnitude n f := by
  by_contra greater
  have above := not_le.mp greater
  have distance := near.le n f other
  rw [abs_of_nonpos (by linarith), abs_of_nonpos (by linarith)] at distance
  linarith

/-- A number that is not above the value is not above the nearest one. -/
theorem ge_of_ge (near : Nearest v m e) (other : Canonical n f) (le : magnitude n f ≤ v)
    : magnitude n f ≤ magnitude m e := by
  by_contra less
  have below := not_le.mp less
  have distance := near.le n f other
  rw [abs_of_nonneg (by linarith), abs_of_nonneg (by linarith)] at distance
  linarith

theorem le_two_pow (near : Nearest v m e) {k : Int} (least : -1022 ≤ k) (le : v ≤ 2 ^ k)
    : magnitude m e ≤ 2 ^ k := by
  rw [← magnitude_two_pow k] at le ⊢
  exact near.le_of_le (canonical_two_pow least) le

theorem two_pow_le (near : Nearest v m e) {k : Int} (least : -1022 ≤ k) (le : 2 ^ k ≤ v)
    : 2 ^ k ≤ magnitude m e := by
  rw [← magnitude_two_pow k] at le ⊢
  exact near.ge_of_ge (canonical_two_pow least) le

/-- Rounding moves a value by at most half a unit. -/
theorem distance_le (near : Nearest v m e) (nonneg : 0 ≤ v)
    : |v - magnitude m e| ≤ 2 ^ e / 2 := by
  rw [abs_sub_le_iff]
  constructor
  · obtain ⟨n, f, next, value, -⟩ := near.canonical.exists_succ
    rw [magnitude_succ] at value
    have distance := near.le n f next
    rw [value] at distance
    have moved := (le_abs_self _).trans distance
    rcases abs_cases (v - (magnitude m e + 2 ^ e)) with ⟨above, _⟩ | ⟨below, _⟩
    · linarith [unit_pos e]
    · linarith
  · rcases Nat.eq_zero_or_pos m with zero | positive
    · rw [zero, magnitude, Nat.cast_zero, zero_mul]
      linarith [unit_pos e]
    · obtain ⟨n, f, previous, lt, le⟩ := near.canonical.exists_pred positive
      have distance := near.le n f previous
      have moved := (neg_le_abs _).trans distance
      rcases abs_cases (v - magnitude n f) with ⟨above, _⟩ | ⟨below, _⟩
      · linarith
      · linarith

end Nearest

/-- A magnitude is the nearest one to itself. -/
theorem Canonical.nearest {m : Nat} {e : Int} (canonical : Canonical m e)
    : Nearest (magnitude m e) m e where
  canonical := canonical
  le n f _ := by simp
  even n f _ tie := by
    rw [sub_self, abs_zero, eq_comm, abs_eq_zero, sub_eq_zero] at tie
    exact .inl tie.symm

end Calculator.Binary
