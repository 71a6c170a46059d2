import Calculator.Proofs.Numeral.Reading

/-! The notations of a decimal. In all of them its digits stand in one piece, with zeros around them
that say where the point is. So they read back as the value of the decimal, their significant digits
are among its digits, and how long they are depends on its digits and on its point only.
-/

namespace Calculator

open Decimal

namespace Decimal

--------------------------------------------------------------------------------
-- Digits
--------------------------------------------------------------------------------

theorem isDigits_digits (d : Decimal)
    : Numeral.IsDigits d.digits :=
  Numeral.isDigits_toDigits d.significand

theorem ofDigitChars_digits (d : Decimal)
    : Nat.ofDigitChars 10 d.digits 0 = d.significand :=
  Nat.ofDigitChars_ten_toDigits

theorem length_digits_le {d : Decimal} {n : Nat} (positive : 0 < n) (small : d.significand < 10 ^ n)
    : d.digits.length ≤ n :=
  (Nat.length_toDigits_le_iff (by norm_num) positive).mpr small

/-- The position of the point says between which powers of ten the value is. -/
theorem pointPosition_bounds {d : Decimal} (positive : 0 < d.significand)
    : 10 ^ (d.pointPosition - 1) ≤ d.value ∧ d.value < 10 ^ d.pointPosition := by
  obtain ⟨n, length⟩ : ∃ n, d.digits.length = n + 1 :=
    Nat.exists_eq_succ_of_ne_zero (List.length_pos_iff.mpr d.isDigits_digits.1).ne'
  have high : d.significand < 10 ^ (n + 1) :=
    (Nat.length_toDigits_le_iff (by norm_num) (Nat.succ_pos n)).mp length.le
  have low : 10 ^ n ≤ d.significand := by
    rcases Nat.eq_zero_or_pos n with rfl | more
    · exact positive
    · rw [← not_lt, ← Nat.length_toDigits_le_iff (by norm_num) more]
      exact (Nat.lt_of_succ_le length.ge).not_ge
  have unit : (0 : Rat) < 10 ^ d.exponent := zpow_pos (by norm_num) _
  have low : (10 : Rat) ^ n ≤ d.significand := by exact_mod_cast low
  have high : (d.significand : Rat) < 10 ^ (n + 1) := by exact_mod_cast high
  have position : d.pointPosition = (n + 1 : Nat) + d.exponent := by rw [pointPosition, length]
  rw [position, value]
  constructor
  · rw [Nat.cast_succ, add_sub_right_comm, add_sub_cancel_right, zpow_add₀ (by norm_num),
      zpow_natCast]
    exact mul_le_mul_of_nonneg_right low unit.le
  · rw [zpow_add₀ (by norm_num), zpow_natCast]
    exact mul_lt_mul_of_pos_right high unit

end Decimal

namespace Numeral

--------------------------------------------------------------------------------
-- Digits around a point
--------------------------------------------------------------------------------

section Parts

variable {whole fraction : List Char}

theorem pointed?_eq (whole_digits : IsDigits whole)
    (fraction_digits : IsDigits fraction)
    : pointed? whole fraction
      = some ⟨Nat.ofDigitChars 10 (whole ++ fraction) 0, -(fraction.length : Int)⟩ :=
  if_pos ⟨whole_digits, fraction_digits⟩

theorem filter_pointed (whole_digits : IsDigits whole)
    (fraction_digits : IsDigits fraction)
    : (whole ++ '.' :: fraction).filter Char.isDigit = whole ++ fraction := by
  rw [List.filter_append, List.filter_cons_of_neg (by decide),
    List.filter_eq_self.mpr whole_digits.2, List.filter_eq_self.mpr fraction_digits.2]

theorem no_exponent_of_digits (whole_digits : IsDigits whole) (fraction_digits : IsDigits fraction)
    : 'e' ∉ whole ++ '.' :: fraction := by
  simp [whole_digits.notMem (by decide : 'e'.isDigit = false),
    fraction_digits.notMem (by decide : 'e'.isDigit = false)]

end Parts

--------------------------------------------------------------------------------
-- Layouts
--------------------------------------------------------------------------------

/-- The parts around the point are digits, and together they are the digits of the decimal with
zeros around them.
-/
structure Pointed (d : Decimal) (whole fraction : List Char) (before behind : Nat) : Prop where
  whole_ne_nil : whole ≠ []
  fraction_ne_nil : fraction ≠ []
  digits : whole ++ fraction = List.replicate before '0' ++ d.digits ++ List.replicate behind '0'
  places : (fraction.length : Int) = behind - d.exponent

namespace Pointed

variable {d : Decimal} {whole fraction : List Char} {before behind : Nat}

/-- Around the point there are digits only. -/
theorem isDigit (pointed : Pointed d whole fraction before behind) {c : Char}
    (mem : c ∈ whole ++ fraction)
    : c.isDigit = true := by
  rw [pointed.digits, List.append_assoc, List.mem_append, List.mem_append] at mem
  rcases mem with zero | digit | zero
  · rw [List.eq_of_mem_replicate zero]
    rfl
  · exact d.isDigits_digits.2 c digit
  · rw [List.eq_of_mem_replicate zero]
    rfl

theorem isDigits_whole (pointed : Pointed d whole fraction before behind)
    : IsDigits whole :=
  ⟨pointed.whole_ne_nil, fun _ mem => pointed.isDigit (List.mem_append_left _ mem)⟩

theorem isDigits_fraction (pointed : Pointed d whole fraction before behind)
    : IsDigits fraction :=
  ⟨pointed.fraction_ne_nil, fun _ mem => pointed.isDigit (List.mem_append_right _ mem)⟩

/-- The zeros do not change the value. -/
theorem value_eq (pointed : Pointed d whole fraction before behind)
    : value ⟨Nat.ofDigitChars 10 (whole ++ fraction) 0, -(fraction.length : Int)⟩ = d.value := by
  have significand
      : Nat.ofDigitChars 10 (whole ++ fraction) 0 = 10 ^ behind * d.significand := by
    rw [pointed.digits, Nat.ofDigitChars_append, Nat.ofDigitChars_append,
      Nat.ofDigitChars_replicate_zero, Nat.ofDigitChars_replicate_zero, Nat.mul_zero,
      d.ofDigitChars_digits]
  rw [value, value, significand, pointed.places, neg_sub, zpow_sub₀ (by norm_num), zpow_natCast]
  push_cast
  field_simp

end Pointed

/-- A whole number gets a zero behind its point. -/
theorem positional_of_whole {d : Decimal} (whole : 0 ≤ d.exponent)
    : d.positional ++ ['.', '0']
        = (d.digits ++ List.replicate d.exponent.toNat '0') ++ '.' :: ['0']
      ∧ Pointed d (d.digits ++ List.replicate d.exponent.toNat '0') ['0'] 0
        (d.exponent.toNat + 1) := by
  have nonempty := List.length_pos_iff.mpr d.isDigits_digits.1
  have none : (-d.exponent).toNat = 0 := by omega
  refine ⟨?_, ?_, ?_, ?_, ?_⟩
  · rw [positional, none, if_pos rfl, Nat.sub_eq_zero_of_le (by simp; omega)]
    rfl
  · simp [d.isDigits_digits.1]
  · simp
  · simp [List.replicate_succ']
  · simp
    omega

/-- The digits of a fraction are filled up with zeros in front, up to one before the point. -/
theorem positional_of_fraction {d : Decimal} (fraction : d.exponent < 0)
    : ∃ whole fraction before, d.positional = whole ++ '.' :: fraction
        ∧ Pointed d whole fraction before 0
        ∧ ((whole ++ fraction).length : Int) = max (1 - d.exponent) d.digits.length := by
  obtain ⟨places, exponent⟩ : ∃ places : Nat, d.exponent = -(places + 1 : Nat) :=
    ⟨(-d.exponent).toNat - 1, by omega⟩
  have count : (-d.exponent).toNat = places + 1 := by omega
  have none : d.exponent.toNat = 0 := by omega
  let padded := List.replicate (places + 1 + 1 - d.digits.length) '0' ++ d.digits
  have length : padded.length = max (places + 2) d.digits.length := by
    simp [padded]
    omega
  refine ⟨padded.take (padded.length - (places + 1)), padded.drop (padded.length - (places + 1)),
    places + 1 + 1 - d.digits.length, ?_, ⟨?_, ?_, ?_, ?_⟩, ?_⟩
  · simp only [positional, count, none, List.replicate_zero, List.append_nil, padded,
      Nat.succ_ne_zero, if_false]
  · rw [← List.length_pos_iff, List.length_take, length]
    omega
  · rw [← List.length_pos_iff, List.length_drop, length]
    omega
  · rw [List.take_append_drop, List.replicate_zero, List.append_nil]
  · rw [List.length_drop, exponent, length]
    omega
  · rw [List.take_append_drop, exponent, length]
    omega

/-- What stands in front of the exponent in scientific notation: the digits, with a point behind the
first one if there are more.
-/
structure Mantissa (d : Decimal) (mantissa : List Char) : Prop where
  reads : mantissa? mantissa = some ⟨d.significand, 1 - (d.digits.length : Int)⟩
  chars : ∀ c ∈ mantissa, c.isDigit = true ∨ c = '.'
  digits : mantissa.filter Char.isDigit = d.digits
  length : mantissa.length ≤ d.digits.length + 1

theorem Mantissa.no_exponent {d : Decimal} {mantissa : List Char} (m : Mantissa d mantissa)
    : 'e' ∉ mantissa := by
  intro mem
  have char := m.chars 'e' mem
  revert char
  decide

/-- Scientific notation is a mantissa with an exponent. -/
theorem exists_mantissa (d : Decimal)
    : ∃ mantissa, d.scientific = mantissa ++ 'e' :: (toString (d.pointPosition - 1)).toList
        ∧ Mantissa d mantissa := by
  have all_digits := d.isDigits_digits
  have significand := d.ofDigitChars_digits
  rcases digits : d.digits with _ | ⟨first, _ | ⟨second, rest⟩⟩
  · exact absurd digits all_digits.1
  · rw [digits] at all_digits significand
    have no_point : '.' ∉ [first] := all_digits.notMem (by decide)
    refine ⟨[first], by rw [scientific, digits], ?_, fun c mem => .inl (all_digits.2 c mem), ?_, ?_⟩
    · simp [mantissa?, cut_of_notMem no_point, all_digits, significand, digits]
    · rw [digits, List.filter_eq_self.mpr all_digits.2]
    · simp
  · rw [digits] at all_digits significand
    have first_digit : IsDigits [first] := ⟨by simp, fun c mem => all_digits.2 c (by simp_all)⟩
    have fraction_digits : IsDigits (second :: rest) :=
      ⟨by simp, fun c mem => all_digits.2 c (List.mem_cons_of_mem first mem)⟩
    have no_point : '.' ∉ [first] := first_digit.notMem (by decide)
    refine ⟨[first] ++ '.' :: second :: rest, by rw [scientific, digits]; rfl, ?_, fun c mem => ?_,
      ?_, ?_⟩
    · simp only [mantissa?, cut_append no_point, pointed?_eq first_digit fraction_digits, digits]
      rw [List.singleton_append, significand]
      simp
    · rcases List.mem_append.mp mem with front | back
      · exact .inl (first_digit.2 c front)
      · rcases List.mem_cons.mp back with point | digit
        · exact .inr point
        · exact .inl (fraction_digits.2 c digit)
    · rw [filter_pointed first_digit fraction_digits, digits, List.singleton_append]
    · simp [digits]

/-- A decimal is written in positional notation, where it does not take many zeros, or in scientific
notation.
-/
theorem ofDecimal_forms (d : Decimal)
    : (∃ whole fraction before behind, ofDecimal d = whole ++ '.' :: fraction
        ∧ Pointed d whole fraction before behind
        ∧ (whole ++ fraction).length ≤ max 22 (d.digits.length + 6))
      ∨ ∃ mantissa, ofDecimal d = mantissa ++ 'e' :: (toString (d.pointPosition - 1)).toList
          ∧ Mantissa d mantissa := by
  unfold ofDecimal
  split
  · left
    rename_i near
    rw [pointPosition] at near
    split
    · rename_i whole
      obtain ⟨text, pointed⟩ := positional_of_whole whole
      refine ⟨_, _, _, _, text, pointed, ?_⟩
      simp
      omega
    · rename_i fraction
      obtain ⟨whole, fraction, before, text, pointed, length⟩ :=
        positional_of_fraction (not_le.mp fraction)
      exact ⟨whole, fraction, before, 0, text, pointed, by omega⟩
  · exact .inr (exists_mantissa d)

--------------------------------------------------------------------------------
-- Reading back
--------------------------------------------------------------------------------

/-- Digits around a point are read as one whole number, scaled by the digits behind it. -/
theorem decimal?_pointed {whole fraction : List Char} (whole_digits : IsDigits whole)
    (fraction_digits : IsDigits fraction)
    : decimal? (whole ++ '.' :: fraction)
      = some ⟨Nat.ofDigitChars 10 (whole ++ fraction) 0, -(fraction.length : Int)⟩ := by
  have no_point : '.' ∉ whole := whole_digits.notMem (by decide)
  rw [decimal?, cut_of_notMem (no_exponent_of_digits whole_digits fraction_digits)]
  simp only [positional?, cut_append no_point, pointed?_eq whole_digits fraction_digits]

/-- A mantissa with its exponent reads back as the same digits. -/
theorem Mantissa.decimal?_eq {d : Decimal} {mantissa : List Char} (m : Mantissa d mantissa)
    : decimal? (mantissa ++ 'e' :: (toString (d.pointPosition - 1)).toList) = some d := by
  have exponent : 1 - (d.digits.length : Int) + (d.pointPosition - 1) = d.exponent := by
    rw [pointPosition]
    omega
  simp only [decimal?, cut_append m.no_exponent, m.reads, integer?_toString]
  simp [exponent]

/-- What is written of a decimal reads back as its value. -/
theorem decimal?_ofDecimal (d : Decimal)
    : ∃ r, decimal? (ofDecimal d) = some r ∧ r.value = d.value := by
  rcases ofDecimal_forms d with ⟨whole, fraction, before, behind, text, pointed, -⟩ |
    ⟨mantissa, text, m⟩
  · rw [text]
    exact ⟨_, decimal?_pointed pointed.isDigits_whole pointed.isDigits_fraction, pointed.value_eq⟩
  · rw [text]
    exact ⟨d, m.decimal?_eq, rfl⟩

--------------------------------------------------------------------------------
-- Significant digits
--------------------------------------------------------------------------------

theorem rdropWhile_append_zeros (digits : List Char) (n : Nat)
    : (digits ++ List.replicate n '0').rdropWhile (· == '0') = digits.rdropWhile (· == '0') := by
  induction n with
  | zero => rw [List.replicate_zero, List.append_nil]
  | succ n ih =>
      rw [List.replicate_succ', ← List.append_assoc, List.rdropWhile_concat_pos _ _ _ (by rfl), ih]

/-- Zeros around digits are no significant digits. -/
theorem length_trimZeros_le (before behind : Nat) (digits : List Char)
    : (trimZeros (List.replicate before '0' ++ digits ++ List.replicate behind '0')).length
      ≤ digits.length := by
  have zeros : ∀ c ∈ List.replicate before '0', (c == '0') = true := by
    intro c mem
    rw [List.eq_of_mem_replicate mem]
    rfl
  rw [trimZeros, List.append_assoc, List.dropWhile_append_of_pos zeros, List.dropWhile_append]
  split
  · simp
  · rw [rdropWhile_append_zeros]
    exact (List.rdropWhile_prefix _ _).length_le.trans (List.dropWhile_suffix _).length_le

/-- The significant digits are among those of the decimal. -/
theorem length_significantDigits_ofDecimal (d : Decimal)
    : (significantDigits (ofDecimal d)).length ≤ d.digits.length := by
  rcases ofDecimal_forms d with ⟨whole, fraction, before, behind, text, pointed, -⟩ |
    ⟨mantissa, text, m⟩
  · have no_exponent := no_exponent_of_digits pointed.isDigits_whole pointed.isDigits_fraction
    rw [text, significantDigits, cut_of_notMem no_exponent,
      filter_pointed pointed.isDigits_whole pointed.isDigits_fraction, pointed.digits]
    exact length_trimZeros_le before behind d.digits
  · rw [text, significantDigits, cut_append m.no_exponent, m.digits]
    simpa using length_trimZeros_le 0 0 d.digits

--------------------------------------------------------------------------------
-- Length
--------------------------------------------------------------------------------

/-- The characters that numerals are written with. -/
def IsPlain (c : Char) : Prop :=
  c.isDigit = true ∨ c = '.' ∨ c = 'e' ∨ c = '-'

/-- Such a character is one byte long. -/
theorem IsPlain.utf8Size {c : Char} (plain : IsPlain c)
    : c.utf8Size = 1 := by
  rcases plain with digit | rfl | rfl | rfl
  · rw [Char.utf8Size_eq_one_iff]
    simp only [Char.isDigit, Bool.and_eq_true, decide_eq_true_eq] at digit
    exact UInt32.le_trans digit.2 (by decide)
  · rfl
  · rfl
  · rfl

/-- A decimal is written in digits, points, minus signs and the letter of the exponent. -/
theorem isPlain_ofDecimal {d : Decimal} {c : Char} (mem : c ∈ ofDecimal d)
    : IsPlain c := by
  rcases ofDecimal_forms d with ⟨whole, fraction, before, behind, text, pointed, -⟩ |
    ⟨mantissa, text, m⟩
  · rw [text, List.mem_append, List.mem_cons] at mem
    rcases mem with digit | point | digit
    · exact .inl (pointed.isDigits_whole.2 c digit)
    · exact .inr (.inl point)
    · exact .inl (pointed.isDigits_fraction.2 c digit)
  · rw [text, List.mem_append, List.mem_cons] at mem
    rcases mem with front | letter | exponent
    · exact (m.chars c front).imp_right .inl
    · exact .inr (.inr (.inl letter))
    · exact (mem_toString exponent).imp_right fun sign => .inr (.inr sign)

/-- What is written of a decimal has no sign in front. -/
theorem head?_ofDecimal (d : Decimal)
    : (ofDecimal d).head? ≠ some '-' := by
  intro sign
  rcases ofDecimal_forms d with ⟨whole, fraction, before, behind, text, pointed, -⟩ |
    ⟨mantissa, text, m⟩
  · rw [text, List.head?_append_of_ne_nil _ pointed.whole_ne_nil] at sign
    exact pointed.isDigits_whole.notMem (by decide) (List.mem_of_mem_head? sign)
  · have nonempty : mantissa ≠ [] := by
      rintro rfl
      exact d.isDigits_digits.1 m.digits.symm
    rw [text, List.head?_append_of_ne_nil _ nonempty] at sign
    have char := m.chars '-' (List.mem_of_mem_head? sign)
    revert char
    decide

/-- Seventeen digits and an exponent of three digits make 24 characters at most. -/
theorem length_ofDecimal_le {d : Decimal} (digits : d.digits.length ≤ 17)
    (exponent : (d.pointPosition - 1).natAbs < 10 ^ 3)
    : (ofDecimal d).length ≤ 24 := by
  rcases ofDecimal_forms d with ⟨whole, fraction, before, behind, text, -, length⟩ |
    ⟨mantissa, text, m⟩
  · rw [List.length_append] at length
    rw [text, List.length_append, List.length_cons]
    omega
  · have front := m.length
    have back := length_toString_le (by norm_num) exponent
    rw [text, List.length_append, List.length_cons]
    omega

end Numeral

end Calculator
