import Calculator.Binary.Basic

/-! The natural logarithm of `1 + y`, summed in whole numbers that count units of
`2 ^ -256`. The sum is off by far less than any distance to a rounding boundary that a
binary64 argument leaves, so rounding it once rounds the logarithm.
-/

namespace Calculator.Binary

/-- The fixed point of the sums: one is `2 ^ fractionBits` units. -/
def fractionBits : Nat := 256

/-- The next `terms` terms of `t + t³/3 + t⁵/5 + …`, in units. `power` holds `t ^ degree`
and `square` holds `t²`.
-/
def artanhTerms (square : Int) : Nat → Int → Nat → Int
  | 0, _, _ => 0
  | terms + 1, power, degree =>
      power / degree + artanhTerms square terms ((power * square) >>> fractionBits) (degree + 2)

/-- The inverse hyperbolic tangent of `num / den`, in units, for arguments of magnitude at
most one third: each term is below a ninth of the one before.
-/
def artanh (num : Int) (den : Nat) : Int :=
  let t := (num <<< fractionBits) / den
  artanhTerms ((t * t) >>> fractionBits) 90 t 1

/-- The natural logarithm of a positive ratio, in units. A ratio outside `1/2` to `2` is
first divided by a power of two, and `log z = 2 artanh ((z - 1) / (z + 1))`.
-/
def logRatio (num den : Nat) : Int :=
  let halvings : Int :=
    if den ≤ 2 * num ∧ num ≤ 2 * den then 0 else (num.log2 : Int) - den.log2
  let num := num <<< (-halvings).toNat
  let den := den <<< halvings.toNat
  2 * (artanh (num - den) (num + den) + halvings * artanh 1 3)

/-- The natural logarithm of `1 + y`. Below `2 ^ -60` the number nearest to it is `y`
itself.
-/
def logOnePlus (y : Float) : Float :=
  match ofFloat? y with
  | none => if y < 0 then 0 / 0 else y
  | some b =>
      if b.significand.log2 + b.exponent < -60 then
        y
      else
        let unit := Nat.pow 2 (-b.exponent).toNat
        let magnitude := b.unitsOf (min b.exponent 0)
        if b.negative && unit ≤ magnitude then
          if unit = magnitude then -1 / 0 else 0 / 0
        else
          let sum := logRatio (if b.negative then unit - magnitude else unit + magnitude) unit
          toFloat
            { negative := sum < 0, significand := sum.natAbs, exponent := -(fractionBits : Int) }

end Calculator.Binary
