import Calculator.Proofs.Decimal.Generation
import Calculator.Proofs.Numeral.Notation

/-! Numerals read back as the numbers they are written for, bit for bit. Their digits lie in the
safe interval of the number, and the notation around them keeps the value and is short enough for
its room.
-/

namespace Calculator.Numeral

open Binary Decimal

--------------------------------------------------------------------------------
-- Reading a text
--------------------------------------------------------------------------------

/-- The text is a numeral, and the number with its sign that is nearest to its exact value is `x`.
-/
def ReadsAs (text : String) (x : Float) : Prop :=
  ∃ negative d m e, signedDecimal? text.toList = some (negative, d) ∧ Nearest d.value m e
    ∧ x = store negative m e

/-- A text reads as one number only. -/
theorem ReadsAs.unique {text : String} {x y : Float} (left : ReadsAs text x)
    (right : ReadsAs text y)
    : x = y := by
  obtain ⟨negative, d, m, e, text_eq, near, rfl⟩ := left
  obtain ⟨negative', d', m', e', text_eq', near', rfl⟩ := right
  rw [text_eq, Option.some.injEq, Prod.mk.injEq] at text_eq'
  obtain ⟨rfl, rfl⟩ := text_eq'
  obtain ⟨rfl, rfl⟩ := near.unique near'
  rfl

theorem signedDecimal?_of_head {text : List Char} (unsigned : text.head? ≠ some '-')
    : signedDecimal? text = (decimal? text).map (false, ·) := by
  unfold signedDecimal?
  split
  · exact absurd rfl unsigned
  · rfl

theorem significantDigits_cons_minus (text : List Char)
    : significantDigits ('-' :: text) = significantDigits text := by
  rw [significantDigits, significantDigits, cut_cons (by decide),
    List.filter_cons_of_neg (by decide)]

--------------------------------------------------------------------------------
-- The decimal of a number
--------------------------------------------------------------------------------

/-- The decimal that is written for a magnitude. -/
def written (b : Binary) : Decimal :=
  if b.significand = 0 then ⟨0, 0⟩ else (SafeInterval.ofBinary b).decimal

/-- The numeral of a finite number. -/
theorem compact_eq {x : Float} {b : Binary} (finite : Binary.ofFloat? x = some b)
    : compact x
      = .ofList (if b.negative then '-' :: ofDecimal (written b) else ofDecimal (written b)) := by
  have zero : ofDecimal ⟨0, 0⟩ = ['0', '.', '0'] := rfl
  have magnitude
      : ofDecimal (written b)
        = if b.significand = 0 then ['0', '.', '0']
          else ofDecimal (SafeInterval.ofBinary b).decimal := by
    rw [written, apply_ite ofDecimal, zero]
  unfold compact signed
  rw [finite, magnitude]

section Number

variable {b : Binary}

/-- The decimal that is written has the number as the nearest one to it. -/
theorem nearest_written (canonical : Canonical b.significand b.exponent)
    (range : b.exponent ≤ 971)
    : Nearest (written b).value b.significand b.exponent := by
  unfold written
  split
  · rename_i zero
    have smallest : b.exponent = -1074 := canonical.normal.resolve_right (by omega)
    rw [zero, smallest]
    simpa [value] using nearest_zero
  · rename_i nonzero
    exact SafeInterval.nearest_decimal canonical range (Nat.pos_of_ne_zero nonzero)

/-- A number is written with at most 17 digits. -/
theorem length_digits_written (canonical : Canonical b.significand b.exponent)
    (range : b.exponent ≤ 971)
    : (written b).digits.length ≤ 17 := by
  refine length_digits_le (by norm_num) ?_
  unfold written
  split
  · norm_num
  · rename_i nonzero
    exact (SafeInterval.holds_decimal_ofBinary canonical range (Nat.pos_of_ne_zero nonzero)).short

theorem two_zpow_le_ten_zpow (k : Nat)
    : (2 : Rat) ^ (3 * k : Int) ≤ 10 ^ (k : Int) := by
  rw [zpow_mul, zpow_natCast, zpow_natCast]
  exact pow_le_pow_left₀ (by norm_num) (by norm_num) k

/-- A number is written with an exponent of at most three digits. -/
theorem exponent_written_lt (canonical : Canonical b.significand b.exponent)
    (range : b.exponent ≤ 971)
    : ((written b).pointPosition - 1).natAbs < 10 ^ 3 := by
  unfold written
  split
  · decide
  · rename_i nonzero
    have positive := Nat.pos_of_ne_zero nonzero
    obtain ⟨low, high⟩ := SafeInterval.decimal_between canonical range positive
    obtain ⟨least, greatest⟩ :=
      pointPosition_bounds (SafeInterval.holds_decimal_ofBinary canonical range positive).positive
    have small := canonical.small
    have smallest := canonical.least
    have powers := two_zpow_le_ten_zpow 500
    have quarters : 2 ^ 0 ≤ lowerQuarters b.significand := by
      unfold lowerQuarters
      split <;> omega
    set d := (SafeInterval.ofBinary b).decimal
    have above : (10 : Rat) ^ (d.pointPosition - 1) < 10 ^ ((500 : Nat) : Int) := by
      calc
        (10 : Rat) ^ (d.pointPosition - 1) ≤ d.value := least
        _ < magnitude (4 * b.significand + 2) (b.exponent - 2) := high
        _ < 2 ^ (b.exponent - 2 + (56 : Nat)) := magnitude_lt_of_lt (by omega) _
        _ ≤ 2 ^ (3 * (500 : Nat) : Int) :=
          zpow_le_zpow_right₀ (by norm_num) (by push_cast; omega)
        _ ≤ 10 ^ ((500 : Nat) : Int) := powers
    have below : (10 : Rat) ^ (-((500 : Nat) : Int)) < 10 ^ d.pointPosition := by
      calc
        (10 : Rat) ^ (-((500 : Nat) : Int)) ≤ 2 ^ (-(3 * (500 : Nat) : Int)) := by
          rw [zpow_neg, zpow_neg]
          exact inv_anti₀ (zpow_pos (by norm_num) _) powers
        _ ≤ 2 ^ (b.exponent - 2 + (0 : Nat)) :=
          zpow_le_zpow_right₀ (by norm_num) (by push_cast; omega)
        _ ≤ magnitude (lowerQuarters b.significand) (b.exponent - 2) :=
          le_magnitude_of_le quarters _
        _ < d.value := low
        _ < 10 ^ d.pointPosition := greatest
    rw [zpow_lt_zpow_iff_right₀ (by norm_num)] at above below
    omega

end Number

--------------------------------------------------------------------------------
-- The numeral of a number
--------------------------------------------------------------------------------

/-- A text of plain characters has as many bytes as characters. -/
theorem utf8Len_eq_length {text : List Char} (plain : ∀ c ∈ text, IsPlain c)
    : String.utf8Len text = text.length := by
  induction text with
  | nil => rfl
  | cons c text ih =>
      have rest := ih fun a mem => plain a (List.mem_cons_of_mem c mem)
      rw [String.utf8Len_cons, List.length_cons, rest, (plain c List.mem_cons_self).utf8Size]

section Finite

variable {x : Float} {b : Binary}

/-- The text of a finite number is read back as that number. -/
theorem readsAs_compact (finite : Binary.ofFloat? x = some b)
    : ReadsAs (compact x) x := by
  obtain ⟨-, canonical, range⟩ := parts_of_ofFloat? finite
  obtain ⟨d, reads, same⟩ := decimal?_ofDecimal (written b)
  have near := nearest_written canonical range
  rw [← same] at near
  refine ⟨b.negative, d, _, _, ?_, near, (store_of_ofFloat? finite).symm⟩
  rw [compact_eq finite, String.toList_ofList]
  cases b.negative with
  | false => rw [if_neg Bool.false_ne_true, signedDecimal?_of_head (head?_ofDecimal _), reads]; rfl
  | true => rw [if_pos rfl, signedDecimal?, reads]; rfl

/-- At most 17 digits of the text of a finite number are significant. -/
theorem length_significantDigits_compact (finite : Binary.ofFloat? x = some b)
    : (significantDigits (compact x).toList).length ≤ 17 := by
  obtain ⟨-, canonical, range⟩ := parts_of_ofFloat? finite
  have digits :=
    (length_significantDigits_ofDecimal (written b)).trans (length_digits_written canonical range)
  rw [compact_eq finite, String.toList_ofList]
  split
  · rwa [significantDigits_cons_minus]
  · exact digits

/-- The text of a finite number is at most 25 bytes long: its characters are plain, and one of them
may be a sign.
-/
theorem utf8ByteSize_compact (finite : Binary.ofFloat? x = some b)
    : (compact x).utf8ByteSize ≤ 25 := by
  obtain ⟨-, canonical, range⟩ := parts_of_ofFloat? finite
  have length :=
    length_ofDecimal_le (length_digits_written canonical range)
      (exponent_written_lt canonical range)
  have plain (c : Char) (mem : c ∈ ofDecimal (written b)) : IsPlain c := isPlain_ofDecimal mem
  rw [compact_eq finite, String.utf8ByteSize_ofList]
  split
  · rw [utf8Len_eq_length, List.length_cons]
    · exact Nat.succ_le_succ length
    · intro c mem
      rcases List.mem_cons.mp mem with sign | rest
      · exact .inr (.inr (.inr sign))
      · exact plain c rest
  · rw [utf8Len_eq_length plain]
    exact Nat.le_succ_of_le length

/-- A compact numeral fits into its room. -/
theorem fitting?_compact (finite : Binary.ofFloat? x = some b)
    : fitting? (compact x) = some (compact x) :=
  if_pos ((utf8ByteSize_compact finite).trans (by decide))

theorem ofFloat_eq_compact (finite : Binary.ofFloat? x = some b)
    : ofFloat x = compact x := by
  rw [ofFloat, fitting?_compact finite, Option.getD_some]

theorem readsAs_ofFloat (finite : Binary.ofFloat? x = some b)
    : ReadsAs (ofFloat x) x := by
  rw [ofFloat_eq_compact finite]
  exact readsAs_compact finite

end Finite

/-- The numeral of every finite number reads back as that number, bit for bit, so that no two of
them have the same numeral. Its digits are those that the one run without overflow ends with, at
most 17 of them are significant, and the numeral has at most 25 bytes and never needs another form.
-/
theorem numerals_read_back {x : Float} (finite : x.isFinite = true)
    : ReadsAs (ofFloat x) x
      ∧ (∀ y : Float, y.isFinite = true → ofFloat y = ofFloat x → y = x)
      ∧ (∀ b, Binary.ofFloat? x = some b → b.significand ≠ 0 → ∀ d,
          (SafeInterval.ofBinary b).Run d ↔ d = (SafeInterval.ofBinary b).decimal)
      ∧ (significantDigits (ofFloat x).toList).length ≤ 17
      ∧ (ofFloat x).utf8ByteSize ≤ 25
      ∧ fitting? (compact x) = some (ofFloat x) := by
  have exists_parts {y : Float} (finite : y.isFinite = true) : ∃ b, Binary.ofFloat? y = some b := by
    rwa [isFinite_eq, Option.isSome_iff_exists] at finite
  obtain ⟨b, parts⟩ := exists_parts finite
  refine ⟨readsAs_ofFloat parts, ?_, ?_, ?_, ?_, ?_⟩
  · intro y y_finite same
    obtain ⟨a, y_parts⟩ := exists_parts y_finite
    have reads := readsAs_ofFloat y_parts
    rw [same] at reads
    exact reads.unique (readsAs_ofFloat parts)
  · intro a a_parts nonzero d
    obtain ⟨-, canonical, range⟩ := parts_of_ofFloat? a_parts
    have positive := Nat.pos_of_ne_zero nonzero
    exact (SafeInterval.sound_ofBinary canonical range positive).run_iff
  · rw [ofFloat_eq_compact parts]
    exact length_significantDigits_compact parts
  · rw [ofFloat_eq_compact parts]
    exact utf8ByteSize_compact parts
  · rw [fitting?_compact parts, ofFloat_eq_compact parts]

/-- Digits that are not the shortest ones: the number nearest to `5e22` is written with 17 digits,
and they read back as that number and as no other one.
-/
theorem numerals_read_back_long
    : (Float.ofBits 0x44a52d02c7e14af6).isFinite = true
      ∧ ofFloat (.ofBits 0x44a52d02c7e14af6) = "4.9999999999999999e22"
      ∧ ReadsAs "4.9999999999999999e22" (.ofBits 0x44a52d02c7e14af6)
      ∧ ∀ y : Float, y.isFinite = true → ofFloat y = "4.9999999999999999e22" →
          y = .ofBits 0x44a52d02c7e14af6 := by
  have finite : (Float.ofBits 0x44a52d02c7e14af6).isFinite = true := by decide +kernel
  have text : ofFloat (.ofBits 0x44a52d02c7e14af6) = "4.9999999999999999e22" := by decide +kernel
  obtain ⟨reads, injective, -⟩ := numerals_read_back finite
  rw [text] at reads injective
  exact ⟨finite, text, reads, injective⟩

end Calculator.Numeral
