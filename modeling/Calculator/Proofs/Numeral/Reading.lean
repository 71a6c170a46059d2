import Mathlib.Data.List.DropRight
import Calculator.Numeral
import Calculator.Proofs.Binary.Decimal

/-! How numerals are read as exact decimals, in both notations: digits with a point, and one digit
or more behind a point together with an exponent. What the notations write of a decimal reads back
as its value.
-/

namespace Calculator.Numeral

--------------------------------------------------------------------------------
-- Reading
--------------------------------------------------------------------------------

/-- A run of digits that is not empty. -/
def IsDigits (run : List Char) : Prop :=
  run ≠ [] ∧ ∀ c ∈ run, c.isDigit = true

instance (run : List Char) : Decidable (IsDigits run) :=
  inferInstanceAs (Decidable (_ ∧ _))

/-- What stands in front of the first `c`, and what stands behind it if there is one. -/
def cut (c : Char) (text : List Char) : List Char × Option (List Char) :=
  match text.dropWhile (· != c) with
  | [] => (text, none)
  | _ :: rest => (text.takeWhile (· != c), some rest)

/-- The decimal of digits with a point between them. -/
def pointed? (whole fraction : List Char) : Option Decimal :=
  if IsDigits whole ∧ IsDigits fraction then
    some
      {
        significand := Nat.ofDigitChars 10 (whole ++ fraction) 0,
        exponent := -(fraction.length : Int)
      }
  else
    none

/-- The decimal of positional notation, which always has a point. -/
def positional? (text : List Char) : Option Decimal :=
  match cut '.' text with
  | (whole, some fraction) => pointed? whole fraction
  | (_, none) => none

/-- The decimal of the digits in scientific notation. There is one digit before the point, and no
point behind a lone digit.
-/
def mantissa? (text : List Char) : Option Decimal :=
  match cut '.' text with
  | ([first], some fraction) => pointed? [first] fraction
  | ([first], none) =>
      if IsDigits [first] then some ⟨Nat.ofDigitChars 10 [first] 0, 0⟩ else none
  | _ => none

/-- The whole number of digits, behind a minus sign if it is negative. -/
def integer? : List Char → Option Int
  | '-' :: run => if IsDigits run then some (-(Nat.ofDigitChars 10 run 0 : Int)) else none
  | run => if IsDigits run then some (Nat.ofDigitChars 10 run 0 : Int) else none

/-- The decimal of a numeral without a sign, in positional notation or with an exponent. -/
def decimal? (text : List Char) : Option Decimal :=
  match cut 'e' text with
  | (text, none) => positional? text
  | (mantissa, some exponent) => do
      let d ← mantissa? mantissa
      let k ← integer? exponent
      return { significand := d.significand, exponent := d.exponent + k }

/-- The sign and the decimal of a numeral. -/
def signedDecimal? : List Char → Option (Bool × Decimal)
  | '-' :: text => (decimal? text).map (true, ·)
  | text => (decimal? text).map (false, ·)

/-- Digits without the zeros on both sides. -/
def trimZeros (digits : List Char) : List Char :=
  (digits.dropWhile (· == '0')).rdropWhile (· == '0')

/-- The significant digits of a numeral: those of its mantissa from the first to the last one that
is not zero.
-/
def significantDigits (text : List Char) : List Char :=
  trimZeros ((cut 'e' text).1.filter Char.isDigit)

section Cut

variable {c : Char} {front : List Char}

theorem bne_of_notMem (absent : c ∉ front)
    : ∀ a ∈ front, (a != c) = true := by
  intro a mem
  rw [bne_iff_ne]
  rintro rfl
  exact absent mem

theorem cut_append (absent : c ∉ front) (rest : List Char)
    : cut c (front ++ c :: rest) = (front, some rest) := by
  unfold cut
  rw [List.dropWhile_append_of_pos (bne_of_notMem absent),
    List.takeWhile_append_of_pos (bne_of_notMem absent)]
  simp

theorem cut_of_notMem (absent : c ∉ front)
    : cut c front = (front, none) := by
  unfold cut
  rw [List.dropWhile_eq_nil_iff.mpr (bne_of_notMem absent)]

theorem cut_cons {a : Char} (other : a ≠ c) (text : List Char)
    : cut c (a :: text) = (a :: (cut c text).1, (cut c text).2) := by
  have passed : (a != c) = true := bne_iff_ne.mpr other
  simp only [cut, List.dropWhile_cons, List.takeWhile_cons, passed, if_true]
  split <;> rfl

end Cut

namespace IsDigits

variable {run : List Char}

theorem notMem (digits : IsDigits run) {c : Char} (other : c.isDigit = false)
    : c ∉ run := by
  intro mem
  rw [digits.2 c mem] at other
  cases other

end IsDigits

theorem isDigits_toDigits (n : Nat)
    : IsDigits (Nat.toDigits 10 n) :=
  ⟨Nat.toDigits_ne_nil, fun _ => Nat.isDigit_of_mem_toDigits (by norm_num) (by norm_num)⟩

/-- Digits are read as the whole number they write. -/
theorem integer?_of_isDigits {run : List Char} (digits : IsDigits run)
    : integer? run = some (Nat.ofDigitChars 10 run 0 : Int) := by
  unfold integer?
  split
  · rename_i run
    exact absurd List.mem_cons_self (digits.notMem (by decide))
  · rw [if_pos digits]

theorem toList_toString_ofNat (n : Nat)
    : (toString (Int.ofNat n)).toList = Nat.toDigits 10 n :=
  Nat.toList_repr

theorem toList_toString_negSucc (n : Nat)
    : (toString (Int.negSucc n)).toList = '-' :: Nat.toDigits 10 (n + 1) := by
  change ("-" ++ (n + 1).repr).toList = _
  rw [String.toList_append, Nat.toList_repr]
  rfl

/-- Whole numbers read back. -/
theorem integer?_toString (n : Int)
    : integer? (toString n).toList = some n := by
  cases n with
  | ofNat n =>
      rw [toList_toString_ofNat, integer?_of_isDigits (isDigits_toDigits n),
        Nat.ofDigitChars_ten_toDigits]
      rfl
  | negSucc n =>
      rw [toList_toString_negSucc, integer?, if_pos (isDigits_toDigits _),
        Nat.ofDigitChars_ten_toDigits]
      rfl

/-- A whole number between `-10 ^ k` and `10 ^ k` has at most `k` digits behind its sign. -/
theorem length_toString_le {n : Int} {k : Nat} (positive : 0 < k) (small : n.natAbs < 10 ^ k)
    : (toString n).toList.length ≤ k + 1 := by
  cases n with
  | ofNat n =>
      rw [toList_toString_ofNat]
      exact Nat.le_succ_of_le ((Nat.length_toDigits_le_iff (by norm_num) positive).mpr small)
  | negSucc n =>
      rw [toList_toString_negSucc, List.length_cons]
      exact Nat.succ_le_succ ((Nat.length_toDigits_le_iff (by norm_num) positive).mpr small)

/-- A whole number is written with digits and a minus sign. -/
theorem mem_toString {n : Int} {c : Char} (mem : c ∈ (toString n).toList)
    : c.isDigit = true ∨ c = '-' := by
  cases n with
  | ofNat n =>
      rw [toList_toString_ofNat] at mem
      exact .inl ((isDigits_toDigits n).2 c mem)
  | negSucc n =>
      rw [toList_toString_negSucc] at mem
      rcases List.mem_cons.mp mem with sign | digit
      · exact .inr sign
      · exact .inl ((isDigits_toDigits (n + 1)).2 c digit)

end Calculator.Numeral
