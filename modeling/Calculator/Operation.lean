import Calculator.AngleMode
import Calculator.Binary.LogOnePlus
import Calculator.Binary.Remainder
import Calculator.Error

/-! The values of operators and functions. Every operation either gives a finite number or
fails with its cause: outside its domain, divided by zero, or beyond the range.
-/

namespace Calculator

/-- A result of `operation`, which fails on NaN and on the infinities. -/
def finiteResult (operation : Symbol) (x : Float) : Except CalcError Float :=
  if x.isNaN then
    .error (.domain operation)
  else if x.isInf then
    .error (.overflow operation)
  else
    .ok x

/-- A power. A zero has no negative powers. -/
def powerResult (operation : Symbol) (base exponent : Float) : Except CalcError Float :=
  if base == 0 && exponent < 0 then
    .error (.dividedByZero base)
  else
    finiteResult operation (base.pow exponent)

/-- The value of an operator on two numbers. The remainder has the sign of its divisor. -/
def Operator.apply (op : Operator) (a b : Float) : Except CalcError Float :=
  match op with
  | add => finiteResult (.operator op) (a + b)
  | sub => finiteResult (.operator op) (a - b)
  | mul => finiteResult (.operator op) (a * b)
  | div =>
      if b == 0 then .error (.dividedByZero a) else finiteResult (.operator op) (a / b)
  | rem =>
      if b == 0 then
        .error (.dividedByZero a)
      else
        finiteResult (.operator op) (Binary.flooredRemainder a b)
  | pow => powerResult (.operator op) a b

namespace AngleFunction

/-- The value of a function at an angle in radians. -/
def apply : AngleFunction → Float → Float
  | sin, x => x.sin
  | cos, x => x.cos
  | tan, x => x.tan
  | sinh, x => x.sinh
  | cosh, x => x.cosh
  | tanh, x => x.tanh

/-- Where the inverse of a function is defined. A NaN is in the domains that are bounded on
one side only, and its result is refused later.
-/
def inInverseDomain : AngleFunction → Float → Bool
  | sin, x | cos, x => -1 ≤ x && x ≤ 1
  | cosh, x => !(x < 1)
  | tanh, x => !(x ≤ -1 || 1 ≤ x)
  | tan, _ | sinh, _ => true

/-- The angle in radians at which a function has a value. -/
def applyInverse : AngleFunction → Float → Float
  | sin, x => x.asin
  | cos, x => x.acos
  | tan, x => x.atan
  | sinh, x => x.asinh
  | cosh, x => x.acosh
  | tanh, x => 0.5 * Binary.logOnePlus (2 * x / (1 - x))

end AngleFunction

namespace UnaryFunction

/-- Where a function of one argument is defined. -/
def inDomain : UnaryFunction → Float → Bool
  | sqrt, x => !(x < 0)
  | log, x | ln, x => !(x ≤ 0)
  | inverse f, x => f.inInverseDomain x
  | deg, _ | rad, _ | angle _, _ => true

/-- The value of a function at an argument of its domain. The angle mode counts for the
functions of an angle and their inverses only.
-/
def value (mode : AngleMode) : UnaryFunction → Float → Float
  | sqrt, x => x.sqrt
  | log, x => x.log10
  | ln, x => x.log
  | deg, x => degreesOfRadians x
  | rad, x => radiansOfDegrees x
  | angle f, x => f.apply (mode.toRadians x)
  | inverse f, x => mode.ofRadians (f.applyInverse x)

/-- The value of a function of one argument. -/
def apply (f : UnaryFunction) (mode : AngleMode) (x : Float) : Except CalcError Float :=
  if f.inDomain x then
    finiteResult (.function (.unary f)) (f.value mode x)
  else
    .error (.domain (.function (.unary f)))

end UnaryFunction

end Calculator
