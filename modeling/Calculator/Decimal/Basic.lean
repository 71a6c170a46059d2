/-! Decimals: a whole number of units that are powers of ten. Their positional and their
scientific notation, and the rounding of a decimal to a number.
-/

namespace Calculator

/-- The exact value `significand * 10 ^ exponent`. -/
structure Decimal where
  significand : Nat
  exponent : Int
deriving DecidableEq

namespace Decimal

/-- The number nearest to a decimal, ties to the even significand; infinite beyond the range
and zero far enough below it.
-/
def toFloat (d : Decimal) : Float :=
  .ofModel (.ofScientific d.significand d.exponent)

/-- The significant digits as written, the most significant one first. -/
def digits (d : Decimal) : List Char :=
  Nat.toDigits 10 d.significand

/-- How many digits stand before the point in positional notation, counted below zero for
zeros behind the point that come before the first digit.
-/
def pointPosition (d : Decimal) : Int :=
  d.digits.length + d.exponent

/-- Positional notation. A whole number has no point, and a number below one has a zero in
front of it.
-/
def positional (d : Decimal) : List Char :=
  let places := (-d.exponent).toNat
  let shifted := d.digits ++ List.replicate d.exponent.toNat '0'
  let padded := List.replicate (places + 1 - shifted.length) '0' ++ shifted
  let whole := padded.length - places
  if places = 0 then padded else padded.take whole ++ '.' :: padded.drop whole

/-- Scientific notation: one digit before the point, no point behind a lone digit, and an
exponent without a plus sign.
-/
def scientific (d : Decimal) : List Char :=
  let mantissa :=
    match d.digits with
    | first :: second :: rest => first :: '.' :: second :: rest
    | short => short
  mantissa ++ 'e' :: (toString (d.pointPosition - 1)).toList

end Decimal

end Calculator
