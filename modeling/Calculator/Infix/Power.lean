import Calculator.Infix.Layout

/-! Brackets around powers. A power binds tighter than a sign in front of it, so each one is
bracketed together with its whole exponent, and the exponent is the chain of all powers
that follow: `a ^ b ^ c` becomes `( a ^ ( b ^ c ) )`. A power that lacks its base or an
operand in its chain is left as it is.
-/

namespace Calculator.Infix

/-- A layout whose powers are bracketed, cut where its first operand ends. -/
inductive PowerReading where
  /-- An operand, with the signs in front of it and the powers taken of it. -/
  | operand (chain rest : Layout)
  /-- A power sign and the operand that is its exponent. -/
  | power (exponent rest : Layout)
  /-- A power sign whose exponent is incomplete. -/
  | dangling (rest : Layout)
  /-- Anything else. -/
  | other (whole : Layout)

namespace PowerReading

/-- The layout that was cut. -/
def whole : PowerReading → Layout
  | operand chain rest => chain.append rest
  | power exponent rest => .token (.operator .pow) (exponent.append rest)
  | dangling rest => .token (.operator .pow) rest
  | other whole => whole

/-- Puts a base in front. It makes up a bracketed power with the exponent that follows. -/
def withBase (base : Layout → Layout) : PowerReading → PowerReading
  | power exponent rest =>
      operand (.group none (base (.token (.operator .pow) exponent)) .nil) rest
  | dangling rest => other (base (.token (.operator .pow) rest))
  | r => operand (base .nil) r.whole

/-- Puts a power sign in front. It takes the operand that follows as its exponent. -/
def withPower : PowerReading → PowerReading
  | operand chain rest => power chain rest
  | r => dangling r.whole

/-- Puts a sign in front. It belongs to the operand that follows. -/
def withSign (t : Token) : PowerReading → PowerReading
  | operand chain rest => operand (.token t chain) rest
  | r => other (.token t r.whole)

/-- Brackets the powers of a layout, from right to left. -/
def ofLayout : Layout → PowerReading
  | .nil => other .nil
  | .group callee inner rest => (ofLayout rest).withBase (.group callee (ofLayout inner).whole)
  | .token t rest =>
      if Layout.isOperand t rest then
        (ofLayout rest).withBase (.token t)
      else if t = .operator .pow then
        (ofLayout rest).withPower
      else if t.isSign then
        (ofLayout rest).withSign t
      else
        other (.token t (ofLayout rest).whole)

end PowerReading

/-- Brackets every power of a token list that has its base and a complete exponent. -/
def powersGrouped (tokens : List Token) : List Token :=
  (PowerReading.ofLayout (.ofTokens tokens)).whole.tokens

end Calculator.Infix
