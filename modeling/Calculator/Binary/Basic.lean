/-! The exact value of a finite binary64 number: a sign and a whole multiple of a power
of two. Reading a number apart loses nothing, and putting one together rounds to the
nearest number, ties to the even significand.
-/

namespace Calculator

open Float.Model (UnpackedFloat)

/-- The exact value `significand * 2 ^ exponent`, negated if `negative` holds. The sign of
a zero is kept.
-/
structure Binary where
  negative : Bool
  significand : Nat
  exponent : Int
deriving DecidableEq

namespace Binary

/-- A finite number taken apart. A zero gets the smallest exponent there is, so every
finite number has a significand below `2 ^ 53` and an exponent of at least `-1074`.
-/
def ofFloat? (x : Float) : Option Binary :=
  match x.toModel.unpack with
  | .finite sign significand exponent _ =>
      some { negative := sign == .negative, significand, exponent }
  | .zero sign => some { negative := sign == .negative, significand := 0, exponent := -1074 }
  | .infinity _ => none
  | .notANumber => none

/-- The number nearest to an exact value, ties to the even significand. Values beyond the
range become infinite.
-/
def toFloat (b : Binary) : Float :=
  .ofModel (.pack (UnpackedFloat.round .binary64 (if b.negative then .negative else .positive)
    b.significand b.exponent))

/-- The significand of `b` counted in units of `2 ^ exponent`, for an exponent not above
that of `b`.
-/
def unitsOf (b : Binary) (exponent : Int) : Nat :=
  b.significand <<< (b.exponent - exponent).toNat

end Binary

end Calculator
