import Calculator.Decimal.SafeInterval
import Calculator.Decimal.Shortest

/-! Numerals, the texts of numbers. Reading takes digits with at most one point. Writing
knows two forms: the form of answers and token lists, which keeps a fraction on whole
numbers and changes to scientific notation at the ends of the range, and the plain form,
which is always positional and as short as possible.
-/

namespace Calculator.Numeral

/-- The characters of a numeral as it is read. -/
def isNumeralChar (c : Char) : Bool :=
  c.isDigit || c == '.'

/-- The decimal that a run of digits and points stands for: at least one digit and at most
one point are asked for.
-/
def read? (run : List Char) : Option Decimal :=
  let whole := run.takeWhile (· != '.')
  let fraction := (run.dropWhile (· != '.')).drop 1
  if fraction.contains '.' || (whole ++ fraction).isEmpty then
    none
  else
    some
      {
        significand := Nat.ofDigitChars 10 (whole ++ fraction) 0,
        exponent := -(fraction.length : Int)
      }

/-- Positional notation with a fraction, for positions of the point from five zeros behind
it up to 21 digits before it, and scientific notation elsewhere.
-/
def ofDecimal (d : Decimal) : List Char :=
  if -6 < d.pointPosition ∧ d.pointPosition ≤ 21 then
    if 0 ≤ d.exponent then d.positional ++ ['.', '0'] else d.positional
  else
    d.scientific

/-- Writes a number with the sign in front of what `magnitude` writes for its exact value. -/
def signed (magnitude : Binary → List Char) (x : Float) : String :=
  match Binary.ofFloat? x with
  | some b => .ofList (if b.negative then '-' :: magnitude b else magnitude b)
  | none => if x.isNaN then "NaN" else if x < 0 then "-inf" else "inf"

/-- The numeral of a number with digits from its safe interval, which are seldom more than the
shortest ones.
-/
def compact (x : Float) : String :=
  signed (fun b =>
    if b.significand = 0 then ['0', '.', '0'] else ofDecimal (SafeInterval.ofBinary b).decimal) x

/-- The plain numeral of a number: the shortest decimal that reads back, in positional
notation.
-/
def plain (x : Float) : String :=
  signed (fun b => if b.significand = 0 then ['0'] else (Decimal.shortest b).positional) x

/-- The room for a compact numeral, in bytes. -/
def room : Nat := 32

/-- A text that fits into the room for compact numerals. -/
def fitting? (text : String) : Option String :=
  if text.utf8ByteSize ≤ room then some text else none

/-- The numeral of a number in answers and token lists. The plain numeral stands in for a compact
one that does not fit.
-/
def ofFloat (x : Float) : String :=
  (fitting? (compact x)).getD (plain x)

end Calculator.Numeral
