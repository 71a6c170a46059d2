import Calculator.Infix.Layout
import Calculator.Proofs.Expression

/-! Phrases, the trees of the grammar in which expressions are written. A phrase knows the
tokens that write it and the expression that it stands for.

A primary is a value, a call or a bracket; a power has a signed exponent; signs stand in front
of powers; a term is a chain of factors, and a sum a chain of terms. Both chains group from
the left, and powers, through their exponents, from the right.
-/

namespace Calculator

/-- The syntactic categories, from the tightest to the loosest. -/
inductive Category where
  | primary
  | power
  | signed
  | term
  | sum
deriving DecidableEq

/-- Whether the phrases of a category are single operands, with their signs. -/
def Category.isOperand : Category → Bool
  | primary | power | signed => true
  | term | sum => false

/-- What a phrase may leave to the reader: the multiplication between neighbours, and the
subtraction behind a sign.
-/
structure Style where
  juxtaposition : Bool
  signs : Bool
deriving DecidableEq

namespace Style

/-- The style of what users write. -/
def written : Style where
  juxtaposition := true
  signs := true

/-- The style in which every multiplication has its sign. -/
def multiplied : Style where
  juxtaposition := false
  signs := true

/-- The style that leaves nothing out. -/
def explicit : Style where
  juxtaposition := false
  signs := false

end Style

/-- The phrases of a category. -/
inductive Phrase (style : Style) : Category → Type where
  | number (x : Float) : Phrase style .primary
  | constant (c : Constant) : Phrase style .primary
  /-- A function of the angle mode that stands alone. -/
  | bare (f : ModeFunction) : Phrase style .primary
  /-- A function of the angle mode with empty brackets. -/
  | modeCall (f : ModeFunction) : Phrase style .primary
  | call (f : UnaryFunction) (argument : Phrase style .sum) : Phrase style .primary
  | powerCall (base exponent : Phrase style .sum) : Phrase style .primary
  | bracketed (inner : Phrase style .sum) : Phrase style .primary
  | single (base : Phrase style .primary) : Phrase style .power
  | raised (base : Phrase style .primary) (exponent : Phrase style .signed)
    : Phrase style .power
  | unsigned (operand : Phrase style .power) : Phrase style .signed
  | plus (allowed : style.signs = true) (operand : Phrase style .signed)
    : Phrase style .signed
  | minus (allowed : style.signs = true) (operand : Phrase style .signed)
    : Phrase style .signed
  | factor (operand : Phrase style .signed) : Phrase style .term
  | scaled (op : Operator) (level : op = .mul ∨ op = .div ∨ op = .rem)
    (left : Phrase style .term) (right : Phrase style .signed)
    : Phrase style .term
  | juxtaposed (allowed : style.juxtaposition = true) (left : Phrase style .term)
    (right : Phrase style .power)
    : Phrase style .term
  | summand (operand : Phrase style .term) : Phrase style .sum
  | combined (op : Operator) (level : op = .add ∨ op = .sub) (left : Phrase style .sum)
    (right : Phrase style .term)
    : Phrase style .sum

namespace Phrase

variable {style : Style} {category : Category}

/-- The tokens that write a phrase. -/
def tokens {category : Category} : Phrase style category → List Token
  | number x => [.number x]
  | constant c => [.constant c]
  | bare f => [.function (.nullary f)]
  | modeCall f => [.function (.nullary f), .openBracket, .closeBracket]
  | call f argument => .function (.unary f) :: .openBracket :: argument.tokens ++ [.closeBracket]
  | powerCall base exponent =>
      .function .power :: .openBracket :: base.tokens
        ++ .separator :: exponent.tokens ++ [.closeBracket]
  | bracketed inner => .openBracket :: inner.tokens ++ [.closeBracket]
  | single base => base.tokens
  | raised base exponent => base.tokens ++ .operator .pow :: exponent.tokens
  | unsigned operand => operand.tokens
  | plus _ operand => .operator .add :: operand.tokens
  | minus _ operand => .operator .sub :: operand.tokens
  | factor operand => operand.tokens
  | scaled op _ left right => left.tokens ++ .operator op :: right.tokens
  | juxtaposed _ left right => left.tokens ++ right.tokens
  | summand operand => operand.tokens
  | combined op _ left right => left.tokens ++ .operator op :: right.tokens

/-- The expression that a phrase stands for. A plus sign changes nothing, a minus sign
subtracts from zero, and neighbours are multiplied.
-/
def expression {category : Category} : Phrase style category → Expression
  | number x => .number x
  | constant c => .constant c
  | bare f | modeCall f => .modeCall f
  | call f argument => .call f argument.expression
  | powerCall base exponent => .powerCall base.expression exponent.expression
  | bracketed inner => inner.expression
  | single base => base.expression
  | raised base exponent => .operation .pow base.expression exponent.expression
  | unsigned operand | plus _ operand => operand.expression
  | minus _ operand => .operation .sub (.number 0) operand.expression
  | factor operand => operand.expression
  | scaled op _ left right => .operation op left.expression right.expression
  | juxtaposed _ left right => .operation .mul left.expression right.expression
  | summand operand => operand.expression
  | combined op _ left right => .operation op left.expression right.expression

/-- No bracket stands directly behind the bare name of a function: the two would be read as
a call and not as a product.
-/
def Apart {category : Category} : Phrase style category → Prop
  | number _ | constant _ | bare _ | modeCall _ => True
  | call _ argument => argument.Apart
  | powerCall base exponent => base.Apart ∧ exponent.Apart
  | bracketed inner => inner.Apart
  | single base => base.Apart
  | raised base exponent => base.Apart ∧ exponent.Apart
  | unsigned operand | plus _ operand | minus _ operand => operand.Apart
  | factor operand => operand.Apart
  | scaled _ _ left right => left.Apart ∧ right.Apart
  | juxtaposed _ left right =>
      left.Apart ∧ right.Apart
      ∧ ∀ f, left.tokens.getLast? = some (.function f) → right.tokens.head? ≠ some .openBracket
  | summand operand => operand.Apart
  | combined _ _ left right => left.Apart ∧ right.Apart

end Phrase

end Calculator
