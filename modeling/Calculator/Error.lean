import Calculator.Numeral
import Calculator.Symbol

/-! Why an expression has no value, and the words in which this is told. -/

namespace Calculator

/-- The two families of failure: malformed input or an argument without a result, and a
result beyond the range of numbers.
-/
inductive ErrorKind where
  | syntactic
  | overflow
deriving DecidableEq

/-- The cause of a failure. -/
inductive CalcError where
  /-- A lexeme that is no token. -/
  | invalidToken (text : String)
  /-- A bracket without its partner. -/
  | mismatchedParenthesis
  /-- A separator outside the brackets of a call. -/
  | misplacedSeparator
  /-- An operator or a function that finds no operand. -/
  | mismatchedOperands
  /-- An expression without any value. -/
  | noOperands
  /-- An expression that leaves several values. -/
  | tooManyOperands
  /-- The last answer is asked for before there is one. -/
  | ansUndefined
  /-- A function that takes arguments stands without brackets. -/
  | missingArguments (f : Function)
  /-- A function is called on a number of arguments that is not its own. -/
  | argumentCount (f : Function) (given : Nat)
  /-- An operation that has no result for its operands. -/
  | domain (operation : Symbol)
  /-- A quotient, remainder or power that divides by zero. -/
  | dividedByZero (dividend : Float)
  /-- An operation whose result is beyond the range. -/
  | overflow (operation : Symbol)
  /-- A numeral beyond the range. -/
  | numeralOverflow (text : String)
deriving DecidableEq

namespace CalcError

/-- The family that a failure belongs to. -/
def kind : CalcError → ErrorKind
  | overflow _ | numeralOverflow _ => .overflow
  | _ => .syntactic

/-- The words for too large a value in an operation or a numeral. -/
def overflowMessage (text : String) : String :=
  "Overflow Error: Operand too large in '" ++ text ++ "'"

/-- The words for a failure. -/
def message : CalcError → String
  | invalidToken text => "Syntax Error: Invalid token(s) '" ++ text ++ "'"
  | mismatchedParenthesis => "Syntax Error: Mismatched parenthesis"
  | misplacedSeparator => "Syntax Error: Mismatched or missing parenthesis"
  | mismatchedOperands => "Syntax Error: Mismatched operands"
  | noOperands => "Syntax Error: No operands given"
  | tooManyOperands => "Syntax Error: Too many operands"
  | ansUndefined => "Syntax Error: Ans never defined"
  | missingArguments f => "Syntax Error: Function '" ++ f.name ++ "' requires an argument list"
  | argumentCount f given =>
      "Syntax Error: Function '" ++ f.name ++ "' takes " ++ f.arity.repr
        ++ " argument(s), " ++ given.repr ++ " given"
  | domain operation => "Domain Error: invalid argument for '" ++ operation.name ++ "'"
  | dividedByZero dividend => "Syntax Error: '" ++ Numeral.plain dividend ++ "' divided by zero"
  | overflow operation => overflowMessage operation.name
  | numeralOverflow text => overflowMessage text

end CalcError

end Calculator
