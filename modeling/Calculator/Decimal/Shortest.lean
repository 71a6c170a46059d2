import Calculator.Binary.Basic
import Calculator.Decimal.Basic

/-! The shortest decimal that reads back as a given number: the point nearest to the number
on the coarsest decimal grid that has a point in the number's rounding interval.
-/

namespace Calculator

/-- The reals that round to a number, counted in quarters of its last place, where one
quarter is `2 ^ exponent`. Both ends belong to the interval if `closed` holds.
-/
structure RoundingInterval where
  lower : Nat
  value : Nat
  upper : Nat
  closed : Bool
  exponent : Int

namespace RoundingInterval

/-- The interval reaches half a place up and down, except that the places below a power of
two are half as wide. The ends round to an even significand.
-/
def ofBinary (b : Binary) : RoundingInterval where
  lower :=
    if b.significand = Nat.pow 2 52 ∧ -1074 < b.exponent then
      4 * b.significand - 1
    else
      4 * b.significand - 2
  value := 4 * b.significand
  upper := 4 * b.significand + 2
  closed := b.significand % 2 = 0
  exponent := b.exponent - 2

/-- The point of the grid of multiples of `10 ^ k` that lies in the interval, as a
multiple. Of two neighbours of the value the nearer one is taken, of two equally near
ones the larger one.
-/
def gridPoint? (i : RoundingInterval) (k : Int) : Option Nat :=
  let units := Nat.pow 2 i.exponent.toNat * Nat.pow 10 (-k).toNat
  let step := Nat.pow 2 (-i.exponent).toNat * Nat.pow 10 k.toNat
  let inside (n : Nat) : Bool :=
    if i.closed then
      i.lower * units ≤ n * step && n * step ≤ i.upper * units
    else
      i.lower * units < n * step && n * step < i.upper * units
  let below := i.value * units / step
  let excess := i.value * units % step
  if inside below && (2 * excess < step || !inside (below + 1)) then
    some below
  else if inside (below + 1) then
    some (below + 1)
  else
    none

/-- The first grid point found on grids of `10 ^ k`, `10 ^ (k - 1)` and so on. -/
def search (i : RoundingInterval) : Nat → Int → Option Decimal
  | 0, _ => none
  | grids + 1, k =>
      match i.gridPoint? k with
      | some n => some { significand := n, exponent := k }
      | none => i.search grids (k - 1)

end RoundingInterval

namespace Decimal

/-- The shortest decimal that reads back as a positive number. The search begins on a grid
wider than the number and ends at seventeen digits at the latest.
-/
def shortest (b : Binary) : Decimal :=
  let start := (b.significand.log2 + 1 + b.exponent) * 30103 / 100000 + 1
  ((RoundingInterval.ofBinary b).search 24 start).getD
    { significand := b.significand, exponent := 0 }

end Decimal

end Calculator
