import Calculator.Numeral
import Calculator.Symbol

/-! The units of an expression, in infix order as well as in postfix order. -/

namespace Calculator

/-- A number, a symbol, a bracket, or the separator between the arguments of a call. -/
inductive Token where
  | number (x : Float)
  | operator (op : Operator)
  | function (f : Function)
  | constant (c : Constant)
  | openBracket
  | closeBracket
  | separator
deriving DecidableEq

namespace Token

/-- The token of a symbol. -/
def ofSymbol : Symbol → Token
  | .operator op => operator op
  | .function f => function f
  | .constant c => constant c

/-- The token that is no number and is written as `text`. -/
def ofText? (text : String) : Option Token :=
  if text = "(" then
    some openBracket
  else if text = ")" then
    some closeBracket
  else if text = "," then
    some separator
  else
    (Symbol.ofName? text).map ofSymbol

/-- The text of a token. -/
def text : Token → String
  | number x => Numeral.ofFloat x
  | operator op => op.name
  | function f => f.name
  | constant c => c.name
  | openBracket => "("
  | closeBracket => ")"
  | separator => ","

/-- The texts of several tokens, with a blank between neighbours. -/
def listing (tokens : List Token) : String :=
  " ".intercalate (tokens.map text)

/-- Whether a token is a function. -/
def isFunction : Token → Bool
  | function _ => true
  | _ => false

/-- Whether a token can be the sign of an operand. -/
def isSign (t : Token) : Bool :=
  t == operator .add || t == operator .sub

/-- Whether a token has a value of its own. -/
def isValue : Token → Bool
  | number _ | constant _ => true
  | _ => false

end Token

end Calculator
