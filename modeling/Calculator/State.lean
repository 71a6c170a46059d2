import Calculator.AngleMode
import Calculator.Symbol

/-! What outlives an expression: the angle mode and the last answer. -/

namespace Calculator

/-- The angle mode and the result of the last expression that had one. A new state is in
radians and has no result.
-/
structure State where
  mode : AngleMode := .radian
  ans : Option Float := none
deriving DecidableEq, Inhabited

namespace State

/-- The same state in the other angle mode. -/
def toggleMode (s : State) : State :=
  { s with mode := s.mode.toggled }

/-- The same state in the given angle mode. -/
def setMode (s : State) (mode : AngleMode) : State :=
  { s with mode }

/-- A new state in place of an old one: in radians, and without a result. -/
def reset (_ : State) : State :=
  {}

/-- Equality of states by the values of their answers: zeros of both signs are equal, and a
NaN is not equal to itself.
-/
def agrees (s t : State) : Bool :=
  s.mode == t.mode
    && match s.ans, t.ans with
      | some x, some y => Float.beq x y
      | none, none => true
      | _, _ => false

end State

/-- The value of a constant. Only the last answer can be missing. -/
def Constant.value? (s : State) : Constant → Option Float
  | pi => some (.ofBits 0x400921fb54442d18)
  | e => some (.ofBits 0x4005bf0a8b145769)
  | ans => s.ans

/-- The value of a function without arguments, the code of the angle mode that is then the
current one, and the state behind it.
-/
def ModeFunction.apply (s : State) : ModeFunction → Float × State
  | toggle => (s.toggleMode.mode.code, s.toggleMode)
  | current => (s.mode.code, s)

end Calculator
