import Calculator.Lexeme
import Calculator.Proofs.Binary.Signed
import Calculator.Proofs.Numeral.Reading

/-! Literals, the numerals of an expression. A run of digits and points has an exact value unless
it is malformed, and it is read as the number nearest to that value, however long it is.
-/

namespace Calculator

open Binary

--------------------------------------------------------------------------------
-- Exact values
--------------------------------------------------------------------------------

namespace Numeral

/-- A run without a digit or with more than one point. -/
def IsMalformed (run : List Char) : Prop :=
  (∀ c ∈ run, c.isDigit = false) ∨ 1 < run.count '.'

/-- The value of digits behind a point, each of which counts a tenth of the one before. -/
def fractionValue : List Char → Rat
  | [] => 0
  | c :: rest => ((c.toNat - '0'.toNat : Nat) + fractionValue rest) / 10

/-- The exact value of digits with a point between them or without one. -/
def literalValue (run : List Char) : Rat :=
  Nat.ofDigitChars 10 (cut '.' run).1 0 + fractionValue ((cut '.' run).2.getD [])

/-- All digits behind the point as one fraction. -/
theorem fractionValue_eq (digits : List Char)
    : fractionValue digits = Nat.ofDigitChars 10 digits 0 / 10 ^ digits.length := by
  induction digits with
  | nil => simp [fractionValue]
  | cons c rest ih =>
      have power : (10 : Rat) ^ rest.length ≠ 0 := pow_ne_zero _ (by norm_num)
      have significand
          : (Nat.ofDigitChars 10 (c :: rest) 0 : Rat)
            = 10 ^ rest.length * (c.toNat - '0'.toNat : Nat) + Nat.ofDigitChars 10 rest 0 := by
        rw [Nat.ofDigitChars_cons, Nat.ofDigitChars_eq_ofDigitChars_zero, Nat.mul_zero,
          Nat.zero_add]
        push_cast
        rfl
      rw [fractionValue, ih, significand, List.length_cons, pow_succ]
      field_simp

/-- The point moves to the end of the digits. -/
theorem literalValue_pointed {whole : List Char} (no_point : '.' ∉ whole) (fraction : List Char)
    : literalValue (whole ++ '.' :: fraction)
      = Decimal.value
          ⟨Nat.ofDigitChars 10 (whole ++ fraction) 0, -(fraction.length : Int)⟩ := by
  have power : (10 : Rat) ^ fraction.length ≠ 0 := pow_ne_zero _ (by norm_num)
  have significand
      : (Nat.ofDigitChars 10 (whole ++ fraction) 0 : Rat)
        = 10 ^ fraction.length * Nat.ofDigitChars 10 whole 0 + Nat.ofDigitChars 10 fraction 0 := by
    rw [Nat.ofDigitChars_append, Nat.ofDigitChars_eq_ofDigitChars_zero]
    push_cast
    rfl
  rw [literalValue, cut_append no_point, Option.getD_some, fractionValue_eq, Decimal.value,
    significand, zpow_neg, zpow_natCast]
  field_simp

theorem literalValue_whole {run : List Char} (no_point : '.' ∉ run)
    : literalValue run = Decimal.value ⟨Nat.ofDigitChars 10 run 0, 0⟩ := by
  simp [literalValue, cut_of_notMem no_point, fractionValue, Decimal.value]

--------------------------------------------------------------------------------
-- Runs that are no literals
--------------------------------------------------------------------------------

theorem isDigit_of_isNumeralChar {c : Char} (numeral : isNumeralChar c = true) (other : c ≠ '.')
    : c.isDigit = true := by
  simpa [isNumeralChar, other] using numeral

section Run

variable {run whole fraction : List Char}

/-- Characters without a digit and without a point are none. -/
theorem eq_nil_of_forall_not_isDigit (chars : ∀ c ∈ run, isNumeralChar c = true)
    (no_point : '.' ∉ run) (no_digit : ∀ c ∈ run, c.isDigit = false)
    : run = [] := by
  rw [List.eq_nil_iff_forall_not_mem]
  intro c mem
  have digit := isDigit_of_isNumeralChar (chars c mem) fun same => no_point (same ▸ mem)
  rw [no_digit c mem] at digit
  cases digit

/-- A run without a point is malformed only if it is empty. -/
theorem isMalformed_whole_iff (chars : ∀ c ∈ run, isNumeralChar c = true) (no_point : '.' ∉ run)
    : IsMalformed run ↔ run = [] := by
  rw [IsMalformed, List.count_eq_zero_of_not_mem no_point]
  constructor
  · rintro (no_digit | points)
    · exact eq_nil_of_forall_not_isDigit chars no_point no_digit
    · omega
  · rintro rfl
    exact .inl (by simp)

/-- A run with a point is malformed if there is another one behind it, or no digit around it. -/
theorem isMalformed_pointed_iff (chars : ∀ c ∈ whole ++ '.' :: fraction, isNumeralChar c = true)
    (no_point : '.' ∉ whole)
    : IsMalformed (whole ++ '.' :: fraction) ↔ '.' ∈ fraction ∨ whole ++ fraction = [] := by
  have points : (whole ++ '.' :: fraction).count '.' = fraction.count '.' + 1 := by
    rw [List.count_append, List.count_eq_zero_of_not_mem no_point, List.count_cons_self,
      Nat.zero_add]
  have around {c : Char} (mem : c ∈ whole ++ fraction) : c ∈ whole ++ '.' :: fraction := by
    rcases List.mem_append.mp mem with before | behind
    · exact List.mem_append_left _ before
    · exact List.mem_append_right _ (List.mem_cons_of_mem _ behind)
  rw [IsMalformed, points, ← List.count_pos_iff]
  by_cases second : 0 < fraction.count '.'
  · exact iff_of_true (.inr (by omega)) (.inl second)
  · rw [or_iff_left (by omega), or_iff_right second]
    rw [List.count_pos_iff] at second
    constructor
    · intro no_digit
      refine eq_nil_of_forall_not_isDigit (fun c mem => chars c (around mem)) ?_
        (fun c mem => no_digit c (around mem))
      exact fun mem => (List.mem_append.mp mem).elim no_point second
    · intro none
      obtain ⟨rfl, rfl⟩ := List.append_eq_nil_iff.mp none
      simp

/-- A run with a point, and a second one or no digit at all, is no literal. -/
theorem read?_pointed_eq (no_point : '.' ∉ whole) (fraction : List Char)
    : read? (whole ++ '.' :: fraction)
      = if '.' ∈ fraction ∨ whole ++ fraction = [] then
          none
        else
          some ⟨Nat.ofDigitChars 10 (whole ++ fraction) 0, -(fraction.length : Int)⟩ := by
  have passed := bne_of_notMem no_point
  unfold read?
  rw [List.takeWhile_append_of_pos passed, List.dropWhile_append_of_pos passed]
  simp

theorem read?_whole_eq (no_point : '.' ∉ run)
    : read? run = if run = [] then none else some ⟨Nat.ofDigitChars 10 run 0, 0⟩ := by
  have passed := bne_of_notMem no_point
  unfold read?
  rw [List.takeWhile_eq_self_iff.mpr passed, List.dropWhile_eq_nil_iff.mpr passed]
  simp

/-- A run that is not malformed is read as a decimal with its exact value. Witness: the part in
front of the first point and the part behind it, or the whole run.
-/
theorem read?_spec (chars : ∀ c ∈ run, isNumeralChar c = true)
    : (IsMalformed run ∧ read? run = none)
      ∨ (¬ IsMalformed run ∧ ∃ d, read? run = some d ∧ d.value = literalValue run) := by
  by_cases point : '.' ∈ run
  · obtain ⟨whole, fraction, rfl, no_point⟩ := List.eq_append_cons_of_mem point
    rw [isMalformed_pointed_iff chars no_point, read?_pointed_eq no_point]
    by_cases malformed : '.' ∈ fraction ∨ whole ++ fraction = []
    · exact .inl ⟨malformed, if_pos malformed⟩
    · exact .inr ⟨malformed, _, if_neg malformed, (literalValue_pointed no_point fraction).symm⟩
  · rw [isMalformed_whole_iff chars point, read?_whole_eq point]
    by_cases malformed : run = []
    · exact .inl ⟨malformed, if_pos malformed⟩
    · exact .inr ⟨malformed, _, if_neg malformed, (literalValue_whole point).symm⟩

end Run

end Numeral

--------------------------------------------------------------------------------
-- Reading a literal
--------------------------------------------------------------------------------

namespace Lexeme

open Numeral

variable {run : List Char}

theorem numberToken_of_isMalformed (chars : ∀ c ∈ run, isNumeralChar c = true)
    (malformed : IsMalformed run)
    : numberToken run = .error (.invalidToken (.ofList run)) := by
  rcases read?_spec chars with ⟨_, reads⟩ | ⟨wellFormed, -⟩
  · rw [numberToken, reads]
  · exact absurd malformed wellFormed

/-- A literal is refused for its size if its value is beyond the range, and otherwise it is read as
the nearest number.
-/
theorem numberToken_of_not_isMalformed (chars : ∀ c ∈ run, isNumeralChar c = true)
    (wellFormed : ¬ IsMalformed run)
    : (2 ^ 1024 - 2 ^ 970 ≤ literalValue run
        ∧ numberToken run = .error (.numeralOverflow (.ofList run)))
      ∨ (literalValue run < 2 ^ 1024 - 2 ^ 970
        ∧ ∃ x b, numberToken run = .ok (.number x) ∧ ofFloat? x = some b ∧ b.negative = false
          ∧ b.IsNearest (literalValue run)) := by
  obtain ⟨malformed, -⟩ | ⟨-, d, reads, value⟩ := read?_spec chars
  · exact absurd malformed wellFormed
  · obtain ⟨m, e, near, stored⟩ := d.toFloat_eq_store
    have nonneg : 0 ≤ d.value := by
      unfold Decimal.value
      positivity
    have limit := near.overflows_iff
    rw [zpow_ofNat, zpow_ofNat] at limit
    rw [← value, numberToken, reads]
    simp only [stored, isInf_store false near.canonical, decide_eq_true_eq]
    by_cases overflow : 971 < e
    · exact .inl ⟨limit.mp overflow, if_pos overflow⟩
    · refine .inr ⟨not_le.mp (mt limit.mpr overflow), _, _, if_neg overflow,
        ofFloat?_store false near.canonical (not_lt.mp overflow), rfl, ?_⟩
      exact near.isNearest nonneg false

/-- A run of digits and points is refused as it stands if it is malformed and as too large if its
exact value is not below the middle between the largest number and the power of two behind it.
Otherwise it is read as the number nearest to its exact value, ties to the even significand.
Witness: the decimal that is read has the exact value of the run.
-/
theorem numberToken_reads_nearest (chars : ∀ c ∈ run, isNumeralChar c = true)
    : (numberToken run = .error (.invalidToken (.ofList run)) ↔ IsMalformed run)
      ∧ (¬ IsMalformed run →
          (numberToken run = .error (.numeralOverflow (.ofList run))
            ↔ 2 ^ 1024 - 2 ^ 970 ≤ literalValue run)
          ∧ (literalValue run < 2 ^ 1024 - 2 ^ 970 →
              ∃ x b, numberToken run = .ok (.number x) ∧ ofFloat? x = some b
                ∧ b.negative = false ∧ b.IsNearest (literalValue run))) := by
  by_cases malformed : IsMalformed run
  · exact ⟨iff_of_true (numberToken_of_isMalformed chars malformed) malformed,
      fun wellFormed => absurd malformed wellFormed⟩
  · rcases numberToken_of_not_isMalformed chars malformed with ⟨large, refused⟩ | ⟨small, x, b, read⟩
    · refine ⟨iff_of_false ?_ malformed, fun _ => ⟨iff_of_true refused large, ?_⟩⟩
      · rw [refused]
        simp
      · exact fun small => absurd large small.not_ge
    · refine ⟨iff_of_false ?_ malformed, fun _ => ⟨iff_of_false ?_ small.not_ge, ?_⟩⟩
      · rw [read.1]
        simp
      · rw [read.1]
        simp
      · exact fun _ => ⟨x, b, read⟩

/-- The middle between two numbers is read as the one with the even significand, which is the lower
one here.
-/
theorem numberToken_of_tie
    : (∀ c ∈ "9007199254740993".toList, isNumeralChar c = true)
      ∧ ¬ IsMalformed "9007199254740993".toList
      ∧ literalValue "9007199254740993".toList = 9007199254740993
      ∧ numberToken "9007199254740993".toList = .ok (.number (.ofBits 0x4340000000000000))
      ∧ ∃ b, ofFloat? (.ofBits 0x4340000000000000) = some b ∧ b.IsNearest 9007199254740993 := by
  have chars : ∀ c ∈ "9007199254740993".toList, isNumeralChar c = true :=
    List.all_eq_true.mp (by decide +kernel)
  have wellFormed : ¬ IsMalformed "9007199254740993".toList := by
    rw [isMalformed_whole_iff chars (by decide +kernel)]
    decide +kernel
  have value : literalValue "9007199254740993".toList = 9007199254740993 := by decide +kernel
  have token
      : numberToken "9007199254740993".toList = .ok (.number (.ofBits 0x4340000000000000)) := by
    decide +kernel
  have small : (9007199254740993 : Rat) < 2 ^ 1024 - 2 ^ 970 := by decide +kernel
  obtain ⟨x, b, read, finite, -, near⟩ :=
    ((numberToken_reads_nearest chars).2 wellFormed).2 (value ▸ small)
  rw [token] at read
  cases read
  exact ⟨chars, wellFormed, value, token, b, finite, value ▸ near⟩

end Lexeme

end Calculator
