import Calculator.Error
import Calculator.State
import Calculator.Token

/-! From infix to postfix order, one token after the other. Values go straight to the
output. Operators, functions and brackets wait on a stack until their operands are
complete, and each bracket counts the arguments inside it.
-/

namespace Calculator.Postfix

/-- Something that waits for its operands, or a bracket with the arguments begun in it. -/
inductive Waiting where
  | operator (op : Operator)
  | function (f : Function)
  | bracket (arguments : Nat)
deriving DecidableEq

/-- The stack with its top first, the output with its newest token first, and the token
that was converted last.
-/
structure Converter where
  stack : List Waiting := []
  output : List Token := []
  last : Option Token := none
deriving DecidableEq

namespace Converter

/-- Moves the operators from the top of the stack to the output that get their right operand
before `op` takes it.
-/
def releaseBefore (op : Operator) : List Waiting → List Token → List Waiting × List Token
  | .operator top :: stack, output =>
      if top.bindsBefore op then
        releaseBefore op stack (.operator top :: output)
      else
        (.operator top :: stack, output)
  | stack, output => (stack, output)

/-- Moves everything above the innermost bracket to the output. Gives the number of its
arguments, the stack below it and the output, if there is a bracket.
-/
def releaseToBracket : List Waiting → List Token → Option (Nat × List Waiting × List Token)
  | [], _ => none
  | .operator op :: stack, output => releaseToBracket stack (.operator op :: output)
  | .function f :: stack, output => releaseToBracket stack (.function f :: output)
  | .bracket arguments :: stack, output => some (arguments, stack, output)

/-- Moves everything to the output, if no bracket is left. -/
def releaseAll : List Waiting → List Token → Option (List Token)
  | [], output => some output
  | .operator op :: stack, output => releaseAll stack (.operator op :: output)
  | .function f :: stack, output => releaseAll stack (.function f :: output)
  | .bracket _ :: _, _ => none

/-- Completes the call of a function that stands without brackets, which only a function
without arguments can do.
-/
def callBare (c : Converter) (f : Function) : Except CalcError Converter :=
  if f.arity ≠ 0 then
    .error (.missingArguments f)
  else
    .ok
      {
        c with
        stack := if c.stack.head? = some (.function f) then c.stack.tail else c.stack,
        output := .function f :: c.output
      }

/-- Completes the call that the last token may be, unless its brackets follow. -/
def settle (c : Converter) (next : Option Token) : Except CalcError Converter :=
  match c.last with
  | some (.function f) => if next = some .openBracket then .ok c else c.callBare f
  | _ => .ok c

/-- The stack on which a closing bracket is met. A bracket with nothing inside has no
arguments.
-/
def closingStack (c : Converter) : List Waiting :=
  match c.last, c.stack with
  | some .openBracket, .bracket _ :: stack => .bracket 0 :: stack
  | _, stack => stack

/-- Completes a group behind its bracket. A function takes as many arguments as it asks for,
and a group without a function is a single expression.
-/
def completeGroup (c : Converter) (arguments : Nat) (stack : List Waiting)
    (output : List Token) : Except CalcError Converter :=
  match stack with
  | .function f :: stack =>
      if f.arity = arguments then
        .ok { c with stack, output := .function f :: output }
      else
        .error (.argumentCount f arguments)
  | stack => if 1 < arguments then .error .misplacedSeparator else .ok { c with stack, output }

/-- Closes the innermost bracket. -/
def closeBracket (c : Converter) : Except CalcError Converter :=
  match releaseToBracket c.closingStack c.output with
  | none => .error .mismatchedParenthesis
  | some (arguments, stack, output) => c.completeGroup arguments stack output

/-- Ends an argument of the innermost bracket, and another one begins. -/
def separate (c : Converter) : Except CalcError Converter :=
  match releaseToBracket c.stack c.output with
  | none => .error .misplacedSeparator
  | some (arguments, stack, output) =>
      .ok { c with stack := .bracket (arguments + 1) :: stack, output }

/-- Takes a token for itself. -/
def take (c : Converter) (t : Token) : Except CalcError Converter :=
  match t with
  | .number _ | .constant _ => .ok { c with output := t :: c.output }
  | .operator op =>
      let (stack, output) := releaseBefore op c.stack c.output
      .ok { c with stack := .operator op :: stack, output }
  | .function f => .ok { c with stack := .function f :: c.stack }
  | .openBracket => .ok { c with stack := .bracket 1 :: c.stack }
  | .closeBracket => c.closeBracket
  | .separator => c.separate

/-- Converts the next token. -/
def push (c : Converter) (t : Token) : Except CalcError Converter := do
  let c ← c.settle t
  let c ← c.take t
  return { c with last := t }

/-- The postfix order of all tokens that were pushed. -/
def finish (c : Converter) : Except CalcError (List Token) := do
  let c ← c.settle none
  match releaseAll c.stack c.output with
  | some output => return output.reverse
  | none => throw .mismatchedParenthesis

/-- Converts the next token, where the last answer must have a value. -/
def pushIn (s : State) (c : Converter) (t : Token) : Except CalcError Converter :=
  if t = .constant .ans ∧ s.ans = none then .error .ansUndefined else c.push t

end Converter

/-- The tokens of an infix expression in postfix order. The state only tells whether there
is a last answer.
-/
def ofTokens (tokens : List Token) (s : State) : Except CalcError (List Token) := do
  let c ← tokens.foldlM (Converter.pushIn s) {}
  c.finish

end Calculator.Postfix
