import Calculator.Binary.Basic

/-! Remainders of numbers. The remainder of a division that truncates is exact; the one of
a division that rounds down needs one addition more, which rounds.
-/

namespace Calculator.Binary

/-- The remainder of `a / b` truncated toward zero. It is exact and has the sign of `a`.
There is none for an infinite `a` or a zero `b`, and an infinite `b` leaves `a` alone.
-/
def truncatedRemainder (a b : Float) : Float :=
  match ofFloat? a, ofFloat? b with
  | some x, some y =>
      if y.significand = 0 then
        0 / 0
      else
        let exponent := min x.exponent y.exponent
        { x with significand := x.unitsOf exponent % y.unitsOf exponent, exponent }.toFloat
  | some _, none => if b.isNaN then b else a
  | none, _ => 0 / 0

/-- The remainder of `a / b` rounded down: a remainder whose sign is not that of `b` gets
`b` added once.
-/
def flooredRemainder (a b : Float) : Float :=
  let r := truncatedRemainder a b
  if r != 0 && (r < 0) != (b < 0) then r + b else r

end Calculator.Binary
