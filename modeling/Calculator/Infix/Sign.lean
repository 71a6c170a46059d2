import Calculator.Infix.Layout

/-! Signs as operations. A sign stands at the beginning or behind an operator, an opening
bracket or a separator. There a minus becomes a bracketed subtraction from zero, `- x`
becomes `( 0 - x )`, and a plus is dropped. A minus without an operand is left as it is.
-/

namespace Calculator.Infix

/-- A layout without signs, cut where its first operand ends. -/
inductive SignReading where
  | operand (first rest : Layout)
  | other (whole : Layout)

namespace SignReading

/-- The layout that was cut. -/
def whole : SignReading → Layout
  | operand first rest => first.append rest
  | other whole => whole

/-- Puts a minus in front. It subtracts the operand that follows from zero. -/
def negated : SignReading → SignReading
  | operand first rest =>
      operand (.group none (.token (.number 0) (.token (.operator .sub) first)) .nil) rest
  | other whole => other (.token (.operator .sub) whole)

/-- Whether a sign may follow a token. -/
def allowsSign : Token → Bool
  | .operator _ | .openBracket | .separator => true
  | _ => false

/-- Rewrites the signs of a layout. The flag tells whether a sign may stand at its
beginning.
-/
def ofLayout : Bool → Layout → SignReading
  | _, .nil => other .nil
  | _, .group callee inner rest =>
      operand (.group callee (ofLayout true inner).whole .nil) (ofLayout false rest).whole
  | signed, .token t rest =>
      if signed && t == .operator .add then
        ofLayout true rest
      else if signed && t == .operator .sub then
        (ofLayout true rest).negated
      else if Layout.isOperand t rest then
        operand (.token t .nil) (ofLayout false rest).whole
      else
        other (.token t (ofLayout (allowsSign t) rest).whole)

end SignReading

/-- Rewrites every sign of a token list. -/
def signsRewritten (tokens : List Token) : List Token :=
  (SignReading.ofLayout true (.ofTokens tokens)).whole.tokens

end Calculator.Infix
