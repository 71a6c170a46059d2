import Calculator.Binary.Basic
import Calculator.Decimal.Basic

/-! Digits that read back, found with products of 64 bits. A number and the ends of its
rounding interval are scaled by a power of ten that is itself rounded to 64 bits. The ends
are drawn in by one unit, which outweighs the error of the scaling, so every decimal in the
remaining interval reads back as the number. The digits found are seldom more than the
shortest ones, and are not always those nearest to the number.
-/

namespace Calculator

/-- A power of ten rounded to 64 bits: about `significand * 2 ^ exponent`. -/
structure ScaledPower where
  significand : Nat
  exponent : Int

namespace ScaledPower

/-- `10 ^ k` with a significand of 64 bits, rounded to the nearest one. -/
def ofExponent (k : Int) : ScaledPower :=
  let power := Nat.pow 10 k.natAbs
  if 0 ≤ k then
    let drop := power.log2 - 63
    {
      significand := (2 * (power <<< (63 - power.log2)) + Nat.pow 2 drop) / (2 * Nat.pow 2 drop),
      exponent := (power.log2 : Int) - 63
    }
  else
    {
      significand := (2 * Nat.pow 2 (64 + power.log2) + power) / (2 * power),
      exponent := -(64 + power.log2 : Int)
    }

/-- The upper 64 bits of a product, rounded. -/
def scale (p : ScaledPower) (n : Nat) : Nat :=
  (n * p.significand + Nat.pow 2 63) >>> 64

end ScaledPower

/-- An interval of decimals that all read back as one number. It is counted in units of
which `2 ^ fractionBits` make `10 ^ exponent`, and it reaches from `top - width` to `top`.
The number itself is about `depth` units below the top.
-/
structure SafeInterval where
  top : Nat
  width : Nat
  depth : Nat
  fractionBits : Nat
  exponent : Int

namespace SafeInterval

/-- The exponent of the power of ten by which an upper end of 64 bits in units of `2 ^ exponent` is
scaled, so that it has between 4 and 30 bits before its fraction. It is a multiple of eight behind
`-340`.
-/
def scaling (exponent : Int) : Int :=
  8 * ((347 - (exponent + 61) * 30103 / 100000) / 8) - 340

/-- The interval of a number that is not zero. The ends are halfway to the numbers before and
behind it, or a quarter of the way down from a power of two.
-/
def ofBinary (b : Binary) : SafeInterval :=
  let spare := 63 - (2 * b.significand + 1).log2
  let upper := (2 * b.significand + 1) <<< spare
  let value := (2 * b.significand) <<< spare
  let lower :=
    if b.significand = Nat.pow 2 52 then
      (4 * b.significand - 1) <<< (spare - 1)
    else
      (2 * b.significand - 1) <<< spare
  let exponent := b.exponent - 1 - spare
  let power := ScaledPower.ofExponent (scaling exponent)
  let top := power.scale upper - 1
  {
    top,
    width := top - (power.scale lower + 1),
    depth := top - power.scale value,
    fractionBits := (-(exponent + power.exponent + 64)).toNat,
    exponent := -scaling exponent
  }

/-- Lowers the last digit as long as that leads nearer to the value without leaving the
interval. The digits stand `rest` units below the top, and one in the last place is worth
`place` units.
-/
def approach (width depth place : Nat) : Nat → Nat → Nat
  | 0, _ => 0
  | digits + 1, rest =>
      if rest < depth
          && rest + place ≤ width
          && (rest + place < depth || rest + place - depth < depth - rest) then
        approach width depth place digits (rest + place)
      else
        digits + 1

/-- The digits of the fraction `rest / one`, up to the place where what is left drops below
the width. Each place scales the width up by ten, so a width above zero is reached.
-/
def fractionDigits (one depth : Nat) (exponent : Int) (digits rest width places : Nat)
    : Decimal :=
  let digits := 10 * digits + 10 * rest / one
  let next := 10 * rest % one
  let places := places + 1
  if next < 10 * width ∨ width = 0 ∨ one ≤ width then
    let depth := if places < 9 then depth * Nat.pow 10 places else 0
    {
      significand := approach (10 * width) depth one digits next,
      exponent := exponent - places
    }
  else
    fractionDigits one depth exponent digits next (10 * width) places
termination_by one - width

/-- The digits of `rest` from the place `10 ^ places` down, up to the place where what is
left is within the width. A whole part too precise for that goes on with its fraction.
-/
def wholeDigits (i : SafeInterval) : Nat → Nat → Nat → Decimal
  | 0, digits, rest =>
      fractionDigits (Nat.pow 2 i.fractionBits) i.depth i.exponent digits rest i.width 0
  | places + 1, digits, rest =>
      let place := Nat.pow 10 places * Nat.pow 2 i.fractionBits
      let digits := 10 * digits + rest / place
      let rest := rest % place
      if rest ≤ i.width then
        {
          significand := approach i.width i.depth place digits rest,
          exponent := i.exponent + places
        }
      else
        i.wholeDigits places digits rest

/-- A decimal in the interval, cut off at the first digit possible. -/
def decimal (i : SafeInterval) : Decimal :=
  i.wholeDigits (Nat.toDigits 10 (i.top >>> i.fractionBits)).length 0 i.top

end SafeInterval

end Calculator
