import Calculator.Binary.Basic

/-! Rounding a number to a whole one. It is computed on the exact value, where the rule
for halves is visible.
-/

namespace Calculator.Binary

/-- The whole number nearest to `significand * 2 ^ exponent`, halves rounded up. -/
def wholeMagnitude (significand : Nat) (exponent : Int) : Nat :=
  if 0 ≤ exponent then
    significand <<< exponent.toNat
  else
    let unit := Nat.pow 2 (-exponent).toNat
    (2 * significand + unit) / (2 * unit)

/-- The nearest whole number, halves rounded away from zero. The sign stays, also on a
number that rounds to zero. Infinities and NaN are returned as they are.
-/
def roundHalfAway (x : Float) : Float :=
  match ofFloat? x with
  | some b =>
      { b with significand := wholeMagnitude b.significand b.exponent, exponent := 0 }.toFloat
  | none => x

end Calculator.Binary
