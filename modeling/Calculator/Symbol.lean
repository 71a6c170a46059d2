/-! What a word or a sign of an expression stands for: the binary operators, the functions
by the number of their arguments, and the constants, each with its name.
-/

namespace Calculator

--------------------------------------------------------------------------------
-- Operators
--------------------------------------------------------------------------------

/-- The binary operators. -/
inductive Operator where
  | add
  | sub
  | mul
  | div
  | rem
  | pow
deriving DecidableEq

namespace Operator

/-- The sign of an operator. -/
def name : Operator → String
  | add => "+"
  | sub => "-"
  | mul => "*"
  | div => "/"
  | rem => "%"
  | pow => "^"

/-- The operator of higher precedence binds tighter. -/
def precedence : Operator → Nat
  | add | sub => 1
  | mul | div | rem => 2
  | pow => 3

/-- A chain of powers is grouped from the right, all other chains from the left. -/
def isRightAssociative (op : Operator) : Bool :=
  op == pow

/-- Whether an operator that waits for its right operand gets it before `next` takes it. -/
def bindsBefore (waiting next : Operator) : Bool :=
  next.precedence < waiting.precedence
    || (next.precedence == waiting.precedence && !next.isRightAssociative)

end Operator

--------------------------------------------------------------------------------
-- Functions
--------------------------------------------------------------------------------

/-- The functions without arguments, which switch or read the angle mode. -/
inductive ModeFunction where
  | toggle
  | current
deriving DecidableEq

/-- The name of a function without arguments. -/
def ModeFunction.name : ModeFunction → String
  | toggle => "tog"
  | current => "mode"

/-- The functions of an angle, circular and hyperbolic. -/
inductive AngleFunction where
  | sin
  | cos
  | tan
  | sinh
  | cosh
  | tanh
deriving DecidableEq

/-- The functions of one argument. -/
inductive UnaryFunction where
  | sqrt
  | log
  | ln
  | deg
  | rad
  | angle (f : AngleFunction)
  | inverse (f : AngleFunction)
deriving DecidableEq

/-- The name of a function of one argument. -/
def UnaryFunction.name : UnaryFunction → String
  | sqrt => "sqrt"
  | log => "log"
  | ln => "ln"
  | deg => "deg"
  | rad => "rad"
  | angle .sin => "sin"
  | angle .cos => "cos"
  | angle .tan => "tan"
  | angle .sinh => "sinh"
  | angle .cosh => "cosh"
  | angle .tanh => "tanh"
  | inverse .sin => "asin"
  | inverse .cos => "acos"
  | inverse .tan => "atan"
  | inverse .sinh => "asinh"
  | inverse .cosh => "acosh"
  | inverse .tanh => "atanh"

/-- The functions that expressions can call. The power is the only one of two arguments. -/
inductive Function where
  | nullary (f : ModeFunction)
  | unary (f : UnaryFunction)
  | power
deriving DecidableEq

namespace Function

/-- The name that calls a function. -/
def name : Function → String
  | nullary f => f.name
  | unary f => f.name
  | power => "pow"

/-- How many arguments a function takes. -/
def arity : Function → Nat
  | nullary _ => 0
  | unary _ => 1
  | power => 2

end Function

--------------------------------------------------------------------------------
-- Constants and the table of names
--------------------------------------------------------------------------------

/-- The named values. The last answer is a constant within one expression. -/
inductive Constant where
  | pi
  | e
  | ans
deriving DecidableEq

/-- The name of a constant. -/
def Constant.name : Constant → String
  | pi => "pi"
  | e => "e"
  | ans => "ans"

/-- What a name of an expression stands for. -/
inductive Symbol where
  | operator (op : Operator)
  | function (f : Function)
  | constant (c : Constant)
deriving DecidableEq

namespace Symbol

/-- The name of a symbol. -/
def name : Symbol → String
  | operator op => op.name
  | function f => f.name
  | constant c => c.name

/-- Every symbol, once. -/
def all : List Symbol :=
  [Operator.add, .sub, .mul, .div, .rem, .pow].map operator
    ++ [ModeFunction.toggle, .current].map (fun f => function (.nullary f))
    ++ [UnaryFunction.sqrt, .log, .ln, .deg, .rad].map (fun f => function (.unary f))
    ++ [AngleFunction.sin, .cos, .tan, .sinh, .cosh, .tanh].flatMap (fun f =>
      [function (.unary (.angle f)), function (.unary (.inverse f))])
    ++ [function .power]
    ++ [Constant.pi, .e, .ans].map constant

/-- The symbol of a name. Names are in lower case, and no two symbols share one. -/
def ofName? (name : String) : Option Symbol :=
  all.find? (·.name == name)

end Symbol

end Calculator
