import Calculator.Proofs.Binary.Decimal
import Calculator.Proofs.Decimal.SafeInterval

/-! The generation of digits in words of 64 bits. A run asks of every step what a machine needs for
it: no word overflows, a digit is one digit, and the last digit is not lowered below zero. Every
sound interval has one run, which leads to its decimal, and a run ends in the interval with at most
17 digits.
-/

namespace Calculator.SafeInterval

open Binary Decimal

--------------------------------------------------------------------------------
-- Runs
--------------------------------------------------------------------------------

/-- One less in the last place stays in the interval and is nearer to the value. -/
def IsNearer (width depth place rest : Nat) : Prop :=
  rest < depth ∧ rest + place ≤ width
    ∧ (rest + place < depth ∨ rest + place - depth < depth - rest)

instance (width depth place rest : Nat) : Decidable (IsNearer width depth place rest) :=
  inferInstanceAs (Decidable (_ ∧ _ ∧ (_ ∨ _)))

/-- Lowering the last digit as long as that is nearer. The digits are those of a number, and the
last one is above zero whenever it is lowered.
-/
inductive Lowering (width depth place : Nat) : Nat → Nat → Nat → Nat → Prop where
  | done {digits rest : Nat} (far : ¬IsNearer width depth place rest)
      : Lowering width depth place digits rest digits rest
  | step {digits rest final left : Nat} (nearer : IsNearer width depth place rest)
      (last : (digits + 1) % 10 ≠ 0) (fits : rest + place < 2 ^ 64)
      (more : Lowering width depth place digits (rest + place) final left)
      : Lowering width depth place (digits + 1) rest final left

/-- The loop over the digits of the fraction. The depth is scaled by a table that has eight powers
of ten.
-/
inductive FractionRun (i : SafeInterval) : Nat → Nat → Nat → Nat → Decimal → Prop where
  | last {digits rest width places final left : Nat}
      (fits : 10 * rest < 2 ^ 64 ∧ 10 * width < 2 ^ 64)
      (digit : 10 * rest / 2 ^ i.fractionBits < 10)
      (close : 10 * rest % 2 ^ i.fractionBits < 10 * width)
      (scaled : i.depth * 10 ^ (places + 1) < 2 ^ 64)
      (lowered : Lowering (10 * width)
        (if places + 1 < 9 then i.depth * 10 ^ (places + 1) else 0) (2 ^ i.fractionBits)
        (10 * digits + 10 * rest / 2 ^ i.fractionBits) (10 * rest % 2 ^ i.fractionBits) final left)
      : FractionRun i digits rest width places ⟨final, i.exponent - (places + 1 : Nat)⟩
  | next {digits rest width places : Nat} {d : Decimal}
      (fits : 10 * rest < 2 ^ 64 ∧ 10 * width < 2 ^ 64)
      (digit : 10 * rest / 2 ^ i.fractionBits < 10)
      (far : 10 * width ≤ 10 * rest % 2 ^ i.fractionBits)
      (more : FractionRun i (10 * digits + 10 * rest / 2 ^ i.fractionBits)
        (10 * rest % 2 ^ i.fractionBits) (10 * width) (places + 1) d)
      : FractionRun i digits rest width places d

/-- The loop over the digits of the whole part, which goes on with those of the fraction. -/
inductive WholeRun (i : SafeInterval) : Nat → Nat → Nat → Decimal → Prop where
  | last {digits rest places final left : Nat}
      (fits : 10 ^ places * 2 ^ i.fractionBits < 2 ^ 64)
      (digit : rest / (10 ^ places * 2 ^ i.fractionBits) < 10)
      (close : rest % (10 ^ places * 2 ^ i.fractionBits) ≤ i.width)
      (lowered : Lowering i.width i.depth (10 ^ places * 2 ^ i.fractionBits)
        (10 * digits + rest / (10 ^ places * 2 ^ i.fractionBits))
        (rest % (10 ^ places * 2 ^ i.fractionBits)) final left)
      : WholeRun i (places + 1) digits rest ⟨final, i.exponent + places⟩
  | next {digits rest places : Nat} {d : Decimal}
      (fits : 10 ^ places * 2 ^ i.fractionBits < 2 ^ 64)
      (digit : rest / (10 ^ places * 2 ^ i.fractionBits) < 10)
      (far : i.width < rest % (10 ^ places * 2 ^ i.fractionBits))
      (more : WholeRun i places (10 * digits + rest / (10 ^ places * 2 ^ i.fractionBits))
        (rest % (10 ^ places * 2 ^ i.fractionBits)) d)
      : WholeRun i (places + 1) digits rest d
  | fraction {digits rest : Nat} {d : Decimal} (more : FractionRun i digits rest i.width 0 d)
      : WholeRun i 0 digits rest d

/-- A whole run. The whole part has at most the nine digits that the table of powers is made for.
-/
def Run (i : SafeInterval) (d : Decimal) : Prop :=
  (Nat.toDigits 10 (i.top >>> i.fractionBits)).length ≤ 9
    ∧ WholeRun i (Nat.toDigits 10 (i.top >>> i.fractionBits)).length 0 i.top d

--------------------------------------------------------------------------------
-- Lowering
--------------------------------------------------------------------------------

section Lowering

variable {width depth place digits rest final left : Nat}

/-- Lowering the last digit keeps the sum. -/
theorem Lowering.sum (lowered : Lowering width depth place digits rest final left)
    : final * place + left = digits * place + rest := by
  induction lowered with
  | done far => rfl
  | step nearer last fits more ih =>
      rw [ih, Nat.succ_mul]
      omega

theorem Lowering.within (lowered : Lowering width depth place digits rest final left)
    (within : rest ≤ width)
    : left ≤ width := by
  induction lowered with
  | done far => exact within
  | step nearer last fits more ih => exact ih nearer.2.1

/-- What lowering leads to is determined. -/
theorem Lowering.unique {other left' : Nat}
    (lowered : Lowering width depth place digits rest final left)
    (also : Lowering width depth place digits rest other left')
    : final = other := by
  induction lowered with
  | done far =>
      cases also with
      | done => rfl
      | step nearer => exact absurd nearer far
  | step nearer last fits more ih =>
      cases also with
      | done far => exact absurd nearer far
      | step _ _ _ more' => exact ih more'

/-- The last digit is lowered step by step. As long as lowering it leads no further than the width,
it is above zero.
-/
theorem lowering_approach (positive : 0 < place) (small : width < 2 ^ 64)
    (enough : width ≤ rest + digits % 10 * place)
    : ∃ left, Lowering width depth place digits rest (approach width depth place digits rest)
        left := by
  induction digits generalizing rest with
  | zero =>
      refine ⟨rest, .done fun nearer => ?_⟩
      have within := nearer.2.1
      omega
  | succ digits ih =>
      by_cases nearer : IsNearer width depth place rest
      · have within := nearer.2.1
        have last : (digits + 1) % 10 ≠ 0 := by
          intro zero
          rw [zero] at enough
          omega
        have lowered : (digits + 1) % 10 = digits % 10 + 1 := by omega
        rw [lowered, Nat.succ_mul] at enough
        obtain ⟨left, more⟩ := ih (by omega : width ≤ rest + place + digits % 10 * place)
        rw [approach, if_pos (by simpa [IsNearer, and_assoc] using nearer)]
        exact ⟨left, .step nearer last (by omega) more⟩
      · rw [approach, if_neg (by simpa [IsNearer, and_assoc] using nearer)]
        exact ⟨rest, .done nearer⟩

/-- With its last digit a quotient has been more than the width. -/
theorem le_last_digit (digits : Nat) (digit : rest / place < 10) (low : width ≤ rest)
    : width ≤ rest % place + (10 * digits + rest / place) % 10 * place := by
  rwa [Nat.mul_add_mod, Nat.mod_eq_of_lt digit, Nat.mod_add_div']

end Lowering

--------------------------------------------------------------------------------
-- The end of a run
--------------------------------------------------------------------------------

/-- The decimal lies between the ends, is not zero, and has at most 17 digits. -/
structure Holds (i : SafeInterval) (d : Decimal) : Prop where
  low : ((i.top - i.width : Nat) : Rat) * i.unit ≤ d.value
  high : d.value ≤ i.top * i.unit
  positive : 0 < d.significand
  short : d.significand < 10 ^ 17

/-- Digits that stand less than the width below the top are in the interval. All of it is counted in
parts of a unit.
-/
theorem Sound.holds_of_cut {i : SafeInterval} (sound : i.Sound) {parts place digits left : Nat}
    {exponent : Int} (sum : digits * place + left = parts * i.top)
    (within : left ≤ parts * i.width) (coarse : parts * i.width < 10 * place)
    (unit : (10 : Rat) ^ exponent * parts = place * i.unit)
    : i.Holds ⟨digits, exponent⟩ := by
  have places : 0 < place := by omega
  have worth : value ⟨digits, exponent⟩ * parts = (digits * place : Nat) * i.unit := by
    rw [value, Nat.cast_mul, mul_assoc, unit, ← mul_assoc]
  have counted : (0 : Rat) < parts := by
    have positive : 0 < (10 : Rat) ^ exponent * parts := by
      rw [unit]
      exact mul_pos (by exact_mod_cast places) i.unit_pos
    exact pos_of_mul_pos_right positive (zpow_pos (by norm_num) _).le
  have wide := sound.top_le
  have narrow := sound.width_lt
  have below : parts * (i.top - i.width) ≤ digits * place := by
    rw [Nat.mul_sub]
    omega
  refine ⟨?_, ?_, ?_, ?_⟩
  · refine le_of_mul_le_mul_right ?_ counted
    rw [worth, mul_right_comm, ← Nat.cast_mul]
    refine mul_le_mul_of_nonneg_right ?_ i.unit_pos.le
    exact_mod_cast (Nat.mul_comm _ _).trans_le below
  · refine le_of_mul_le_mul_right ?_ counted
    rw [worth, mul_right_comm, ← Nat.cast_mul]
    refine mul_le_mul_of_nonneg_right ?_ i.unit_pos.le
    have above : digits * place ≤ i.top * parts := by
      rw [Nat.mul_comm i.top]
      omega
    exact_mod_cast above
  · have counted : 0 < parts := by exact_mod_cast counted
    have positive : 0 < digits * place :=
      (Nat.mul_pos counted (Nat.sub_pos_of_lt narrow)).trans_le below
    exact Nat.pos_of_mul_pos_right positive
  · refine Nat.lt_of_mul_lt_mul_right (?_ : digits * place < 10 ^ 17 * place)
    calc
      digits * place ≤ parts * i.top := by omega
      _ ≤ parts * (10 ^ 16 * i.width) := Nat.mul_le_mul_left _ wide
      _ = 10 ^ 16 * (parts * i.width) := by ring
      _ < 10 ^ 17 * place := by omega

--------------------------------------------------------------------------------
-- The fraction
--------------------------------------------------------------------------------

/-- Between two digits of the fraction: what is left is a fraction and is not below the width, which
has been scaled up with it.
-/
structure InFraction (i : SafeInterval) (digits rest width places : Nat) : Prop where
  sum : digits * 2 ^ i.fractionBits + rest = 10 ^ places * i.top
  scaled : width = 10 ^ places * i.width
  low : width ≤ rest
  high : rest < 2 ^ i.fractionBits

namespace InFraction

variable {i : SafeInterval} {digits rest width places : Nat}

theorem digit (inv : InFraction i digits rest width places)
    : 10 * rest / 2 ^ i.fractionBits < 10 :=
  Nat.div_lt_of_lt_mul (by have := inv.high; omega)

/-- Another digit of the fraction keeps the sum of what is generated and what is left. -/
theorem next_sum (inv : InFraction i digits rest width places)
    : (10 * digits + 10 * rest / 2 ^ i.fractionBits) * 2 ^ i.fractionBits
        + 10 * rest % 2 ^ i.fractionBits
      = 10 ^ (places + 1) * i.top := by
  have split := Nat.div_add_mod' (10 * rest) (2 ^ i.fractionBits)
  rw [Nat.add_mul, Nat.add_assoc, split, Nat.mul_assoc, ← Nat.mul_add, inv.sum, pow_succ']
  ring

theorem next_scaled (inv : InFraction i digits rest width places)
    : 10 * width = 10 ^ (places + 1) * i.width := by
  rw [inv.scaled, pow_succ']
  ring

/-- Another digit of the fraction keeps the invariant. -/
theorem next (inv : InFraction i digits rest width places)
    (far : 10 * width ≤ 10 * rest % 2 ^ i.fractionBits)
    : InFraction i (10 * digits + 10 * rest / 2 ^ i.fractionBits)
      (10 * rest % 2 ^ i.fractionBits) (10 * width) (places + 1) where
  sum := inv.next_sum
  scaled := inv.next_scaled
  low := far
  high := Nat.mod_lt _ (Nat.two_pow_pos _)

theorem fits (inv : InFraction i digits rest width places) (sound : i.Sound)
    : 10 * rest < 2 ^ 64 ∧ 10 * width < 2 ^ 64 := by
  have low := inv.low
  have high := inv.high.trans_le (Nat.pow_le_pow_right two_pos sound.fine)
  omega

theorem positive (inv : InFraction i digits rest width places) (sound : i.Sound)
    : 0 < width := by
  have top := sound.top_le
  have below := sound.width_lt
  rw [inv.scaled]
  exact Nat.mul_pos (by positivity) (by omega)

end InFraction

/-- The digits of the fraction are determined. Witness: where one run stops the rest is close
enough, and where one goes on it is not.
-/
theorem FractionRun.unique {i : SafeInterval} {digits rest width places : Nat} {d d' : Decimal}
    (run : FractionRun i digits rest width places d)
    (also : FractionRun i digits rest width places d')
    : d = d' := by
  induction run with
  | last fits digit close scaled lowered =>
      cases also with
      | last _ _ _ _ lowered' => rw [lowered.unique lowered']
      | next _ _ far => exact absurd close far.not_gt
  | next fits digit far more ih =>
      cases also with
      | last _ _ close => exact absurd close far.not_gt
      | next _ _ _ more' => exact ih more'

/-- The digits of a fraction end in the interval, by induction over the run. -/
theorem FractionRun.holds {i : SafeInterval} (sound : i.Sound) {digits rest width places : Nat}
    {d : Decimal} (run : FractionRun i digits rest width places d)
    (inv : InFraction i digits rest width places)
    : i.Holds d := by
  induction run with
  | next fits digit far more ih => exact ih (inv.next far)
  | @last digits rest width places final left fits digit close scaled lowered =>
      have sum := lowered.sum.trans inv.next_sum
      have within := lowered.within close.le
      have low := inv.low
      have high := inv.high
      rw [inv.next_scaled] at within
      refine sound.holds_of_cut sum within (by rw [← inv.next_scaled]; omega) ?_
      rw [unit, Nat.cast_pow, Nat.cast_pow, zpow_sub₀ (by norm_num), zpow_natCast]
      push_cast
      field_simp

/-- The program runs through the digits of a fraction, by induction over its own recursion. -/
theorem fractionRun_fractionDigits {i : SafeInterval} (sound : i.Sound)
    {digits rest width places : Nat} (inv : InFraction i digits rest width places)
    : FractionRun i digits rest width places
      (fractionDigits (2 ^ i.fractionBits) i.depth i.exponent digits rest width places) := by
  fun_induction fractionDigits (2 ^ i.fractionBits) i.depth i.exponent digits rest width places with
  | case1 digits rest width places digits' next places' stop depth =>
      have fits := inv.fits sound
      have low := inv.low
      -- The width is neither zero nor above one, so the program stops for being close.
      have positive := inv.positive sound
      have close : next < 10 * width := by
        have high := inv.high
        omega
      have scaled : i.depth * 10 ^ (places + 1) ≤ 10 * width := by
        rw [inv.next_scaled, Nat.mul_comm]
        exact Nat.mul_le_mul_left _ sound.depth_le
      obtain ⟨left, lowered⟩ :=
        lowering_approach (Nat.two_pow_pos i.fractionBits) fits.2
          (le_last_digit digits inv.digit (Nat.mul_le_mul_left 10 low))
      exact .last fits inv.digit close (by omega) lowered
  | case2 digits rest width places digits' next places' far ih =>
      have far : 10 * width ≤ next := by omega
      exact .next (inv.fits sound) inv.digit far (ih (inv.next far))

--------------------------------------------------------------------------------
-- The whole part
--------------------------------------------------------------------------------

/-- Between two digits of the whole part: what is left has as many places as there are to come, and
is more than the width.
-/
structure InWhole (i : SafeInterval) (places digits rest : Nat) : Prop where
  sum : digits * (10 ^ places * 2 ^ i.fractionBits) + rest = i.top
  low : i.width < rest
  high : rest < 10 ^ places * 2 ^ i.fractionBits

namespace InWhole

variable {i : SafeInterval} {places digits rest : Nat}

theorem digit (inv : InWhole i (places + 1) digits rest)
    : rest / (10 ^ places * 2 ^ i.fractionBits) < 10 := by
  refine Nat.div_lt_of_lt_mul ?_
  have high := inv.high
  rw [pow_succ] at high
  linarith

/-- Another digit of the whole part keeps the sum of what is generated and what is left. -/
theorem next_sum (inv : InWhole i (places + 1) digits rest)
    : (10 * digits + rest / (10 ^ places * 2 ^ i.fractionBits)) * (10 ^ places * 2 ^ i.fractionBits)
        + rest % (10 ^ places * 2 ^ i.fractionBits)
      = i.top := by
  have split := Nat.div_add_mod' rest (10 ^ places * 2 ^ i.fractionBits)
  have sum := inv.sum
  rw [Nat.add_mul, Nat.add_assoc, split, ← sum, pow_succ]
  ring

theorem next (inv : InWhole i (places + 1) digits rest)
    (far : i.width < rest % (10 ^ places * 2 ^ i.fractionBits))
    : InWhole i places (10 * digits + rest / (10 ^ places * 2 ^ i.fractionBits))
      (rest % (10 ^ places * 2 ^ i.fractionBits)) where
  sum := inv.next_sum
  low := far
  high := Nat.mod_lt _ (by positivity)

theorem fraction (inv : InWhole i 0 digits rest)
    : InFraction i digits rest i.width 0 where
  sum := by simpa using inv.sum
  scaled := by simp
  low := inv.low.le
  high := by simpa using inv.high

end InWhole

/-- So are the digits of the whole part. -/
theorem WholeRun.unique {i : SafeInterval} {places digits rest : Nat} {d d' : Decimal}
    (run : WholeRun i places digits rest d) (also : WholeRun i places digits rest d')
    : d = d' := by
  induction run with
  | last fits digit close lowered =>
      cases also with
      | last _ _ _ lowered' => rw [lowered.unique lowered']
      | next _ _ far => exact absurd close far.not_ge
  | next fits digit far more ih =>
      cases also with
      | last _ _ close => exact absurd close far.not_ge
      | next _ _ _ more' => exact ih more'
  | fraction more =>
      cases also with
      | fraction more' => exact more.unique more'

/-- A run that begins within the interval gives a decimal in it. Witness: induction on the run; each
step keeps what is generated and what is left.
-/
theorem WholeRun.holds {i : SafeInterval} (sound : i.Sound) {places digits rest : Nat} {d : Decimal}
    (run : WholeRun i places digits rest d) (inv : InWhole i places digits rest)
    : i.Holds d := by
  induction run with
  | next fits digit far more ih => exact ih (inv.next far)
  | fraction more => exact more.holds sound inv.fraction
  | @last digits rest places final left fits digit close lowered =>
      have sum := lowered.sum.trans inv.next_sum
      have within := lowered.within close
      have low := inv.low
      have high := inv.high
      refine sound.holds_of_cut (sum.trans (Nat.one_mul _).symm) (by omega) ?_ ?_
      · rw [pow_succ] at high
        linarith
      · rw [unit, zpow_add₀ (by norm_num), zpow_natCast]
        push_cast
        field_simp

/-- The loop over the whole part is a run, in which no word overflows. Witness: induction along the
loop.
-/
theorem wholeRun_wholeDigits {i : SafeInterval} (sound : i.Sound)
    {places digits rest : Nat} (inv : InWhole i places digits rest)
    (fits : 10 ^ places * 2 ^ i.fractionBits < 10 * 2 ^ 64)
    : WholeRun i places digits rest (i.wholeDigits places digits rest) := by
  fun_induction i.wholeDigits places digits rest with
  | case1 digits rest => exact .fraction (fractionRun_fractionDigits sound inv.fraction)
  | case2 places digits rest place digits' rest' close =>
      have fits : 10 ^ places * 2 ^ i.fractionBits < 2 ^ 64 := by
        rw [pow_succ'] at fits
        linarith
      have width := sound.width_lt.trans sound.top_lt
      obtain ⟨left, lowered⟩ :=
        lowering_approach (by positivity) width (le_last_digit digits inv.digit inv.low.le)
      exact .last fits inv.digit close lowered
  | case3 places digits rest place digits' rest' far ih =>
      have fits : 10 ^ places * 2 ^ i.fractionBits < 2 ^ 64 := by
        rw [pow_succ'] at fits
        linarith
      exact .next fits inv.digit (not_le.mp far) (ih (inv.next (not_le.mp far)) (by omega))

section Interval

variable {i : SafeInterval}

/-- A run begins in front of the whole part. -/
theorem Sound.inWhole (sound : i.Sound)
    : InWhole i (Nat.toDigits 10 (i.top >>> i.fractionBits)).length 0 i.top where
  sum := by rw [Nat.zero_mul, Nat.zero_add]
  low := sound.width_lt
  high := by
    rw [Nat.shiftRight_eq_div_pow, ← Nat.div_lt_iff_lt_mul (Nat.two_pow_pos _)]
    exact (Nat.length_toDigits_le_iff (by norm_num) Nat.length_toDigits_pos).mp le_rfl

/-- The place of the first digit is a word. -/
theorem Sound.first_place (sound : i.Sound)
    : 10 ^ (Nat.toDigits 10 (i.top >>> i.fractionBits)).length * 2 ^ i.fractionBits
      < 10 * 2 ^ 64 := by
  have top := sound.top_lt
  have fraction := Nat.pow_le_pow_right two_pos sound.fine
  set length := (Nat.toDigits 10 (i.top >>> i.fractionBits)).length with length_eq
  by_cases short : length ≤ 1
  · have power := Nat.pow_le_pow_right (by norm_num : 0 < 10) short
    calc
      10 ^ length * 2 ^ i.fractionBits ≤ 10 ^ 1 * 2 ^ 60 := Nat.mul_le_mul power fraction
      _ < 10 * 2 ^ 64 := by norm_num
  · have first : 10 ^ (length - 1) ≤ i.top / 2 ^ i.fractionBits := by
      rw [← Nat.shiftRight_eq_div_pow, ← not_lt,
        ← Nat.length_toDigits_le_iff (by norm_num) (by omega), ← length_eq]
      omega
    calc
      10 ^ length * 2 ^ i.fractionBits = 10 * (10 ^ (length - 1) * 2 ^ i.fractionBits) := by
        rw [← mul_assoc, ← pow_succ', Nat.sub_add_cancel (by omega)]
      _ ≤ 10 * i.top :=
        Nat.mul_le_mul_left _ ((Nat.le_div_iff_mul_le (Nat.two_pow_pos _)).mp first)
      _ < 10 * 2 ^ 64 := by omega

/-- Every sound interval has a run to its decimal. -/
theorem Sound.run_decimal (sound : i.Sound)
    : i.Run i.decimal := by
  refine ⟨?_, wholeRun_wholeDigits sound sound.inWhole sound.first_place⟩
  rw [Nat.length_toDigits_le_iff (by norm_num) (by norm_num), Nat.shiftRight_eq_div_pow,
    Nat.div_lt_iff_lt_mul (Nat.two_pow_pos _)]
  exact sound.whole

/-- There is no other run. -/
theorem Sound.run_iff (sound : i.Sound) {d : Decimal}
    : i.Run d ↔ d = i.decimal := by
  constructor
  · intro run
    exact run.2.unique sound.run_decimal.2
  · rintro rfl
    exact sound.run_decimal

/-- A run ends in the interval. -/
theorem Run.holds {d : Decimal} (run : i.Run d) (sound : i.Sound)
    : i.Holds d :=
  run.2.holds sound sound.inWhole

end Interval

--------------------------------------------------------------------------------
-- The digits of a number
--------------------------------------------------------------------------------

section Number

variable {b : Binary}

theorem holds_decimal_ofBinary (canonical : Canonical b.significand b.exponent)
    (range : b.exponent ≤ 971) (positive : 0 < b.significand)
    : (ofBinary b).Holds (ofBinary b).decimal :=
  have sound := sound_ofBinary canonical range positive
  sound.run_decimal.holds sound

/-- The decimal of a number is strictly between the halves around it. -/
theorem decimal_between (canonical : Canonical b.significand b.exponent)
    (range : b.exponent ≤ 971) (positive : 0 < b.significand)
    : magnitude (lowerQuarters b.significand) (b.exponent - 2) < (ofBinary b).decimal.value
      ∧ (ofBinary b).decimal.value < magnitude (4 * b.significand + 2) (b.exponent - 2) := by
  have reads := reads_ofBinary canonical range positive
  have holds := holds_decimal_ofBinary canonical range positive
  exact ⟨reads.low.trans_le holds.low, holds.high.trans_lt reads.high⟩

/-- The number is nearest to its decimal. -/
theorem nearest_decimal (canonical : Canonical b.significand b.exponent)
    (range : b.exponent ≤ 971) (positive : 0 < b.significand)
    : Nearest (ofBinary b).decimal.value b.significand b.exponent := by
  obtain ⟨low, high⟩ := decimal_between canonical range positive
  exact canonical.nearest_of_between positive low high

end Number

end Calculator.SafeInterval
