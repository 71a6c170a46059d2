import Calculator.Binary.Integral
import Calculator.Operation
import Calculator.State
import Calculator.Token

/-! The value of a postfix expression. Each token takes its operands from a stack of values
and leaves its own value there. The state changes only if the whole expression has a value.
-/

namespace Calculator

/-- A number rounded to 15 digits behind the point, halves away from zero. A number too
large to have that many digits is left alone, and a zero is positive.
-/
def roundAnswer (x : Float) : Float :=
  let unit : Float := .ofBits 0x430c6bf526340000
  let scaled := x * unit
  let rounded :=
    if scaled.isFinite && scaled.abs < .ofBits 0x433ff973cafa8000 then
      Binary.roundHalfAway scaled / unit
    else
      x
  if rounded == 0 then 0 else rounded

namespace Postfix

/-- The values with the newest one first, and the state as the expression has changed it. -/
structure Machine where
  values : List Float := []
  state : State

namespace Machine

/-- The machine with one more value. -/
def pushValue (m : Machine) (x : Float) : Machine :=
  { m with values := x :: m.values }

/-- Calls a function on the newest values. -/
def call (m : Machine) (f : Function) : Except CalcError Machine :=
  match f, m.values with
  | .nullary f, values =>
      let (x, state) := f.apply m.state
      .ok { values := x :: values, state }
  | .unary f, x :: values => return { m with values := (← f.apply m.state.mode x) :: values }
  | .unary _, [] => .error .mismatchedOperands
  | .power, b :: a :: values =>
      return { m with values := (← powerResult (.function .power) a b) :: values }
  | .power, values => .error (.argumentCount .power values.length)

/-- Runs one token. -/
def step (m : Machine) (t : Token) : Except CalcError Machine :=
  match t, m.values with
  | .number x, _ => .ok (m.pushValue x)
  | .constant c, _ =>
      match c.value? m.state with
      | some x => .ok (m.pushValue x)
      | none => .error .ansUndefined
  | .operator op, b :: a :: values => return { m with values := (← op.apply a b) :: values }
  | .operator _, _ => .error .mismatchedOperands
  | .function f, _ => m.call f
  | .openBracket, _ | .closeBracket, _ | .separator, _ => .error .mismatchedParenthesis

/-- The single value that is left, rounded as an answer. -/
def answer (m : Machine) : Except CalcError Float :=
  match m.values with
  | [] => .error .noOperands
  | [x] => .ok (roundAnswer x)
  | _ => .error .tooManyOperands

end Machine

/-- The answer to a postfix expression, and the state that remembers it. -/
def evaluate (tokens : List Token) (s : State) : Except CalcError (Float × State) := do
  let m ← tokens.foldlM Machine.step { state := s }
  let x ← m.answer
  return (x, { m.state with ans := some x })

end Postfix

end Calculator
