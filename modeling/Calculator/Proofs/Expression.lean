import Calculator.Postfix.Evaluation
import Calculator.Proofs.Sequencing

/-! Expressions by their structure, and what they mean. The value of an expression is found
from left to right, and each function of the angle mode sees the mode that everything on its
left has brought about. The machine that runs postfix tokens finds the same value.
-/

namespace Calculator

/-- An expression by its structure: brackets, signs and precedence are resolved. -/
inductive Expression where
  | number (x : Float)
  | constant (c : Constant)
  | modeCall (f : ModeFunction)
  | call (f : UnaryFunction) (argument : Expression)
  | powerCall (base exponent : Expression)
  | operation (op : Operator) (left right : Expression)

namespace Expression

/-- The tokens of an expression, each behind the tokens of its operands. -/
def postorder : Expression → List Token
  | number x => [.number x]
  | constant c => [.constant c]
  | modeCall f => [.function (.nullary f)]
  | call f argument => argument.postorder ++ [.function (.unary f)]
  | powerCall base exponent => base.postorder ++ exponent.postorder ++ [.function .power]
  | operation op left right => left.postorder ++ right.postorder ++ [.operator op]

/-- The value of an expression in a state, and the state behind it. The first failure from
the left is the failure of the whole.
-/
def value : Expression → State → Except CalcError (Float × State)
  | number x, s => .ok (x, s)
  | constant c, s =>
      match c.value? s with
      | some x => .ok (x, s)
      | none => .error .ansUndefined
  | modeCall f, s => .ok (f.apply s)
  | call f argument, s => do
      let (x, s) ← argument.value s
      return (← f.apply s.mode x, s)
  | powerCall base exponent, s => do
      let (a, s) ← base.value s
      let (b, s) ← exponent.value s
      return (← powerResult (.function .power) a b, s)
  | operation op left right, s => do
      let (a, s) ← left.value s
      let (b, s) ← right.value s
      return (← op.apply a b, s)

/-- The answer to an expression, its rounded value, and the state that remembers it. -/
def answer (e : Expression) (s : State) : Except CalcError (Float × State) := do
  let (x, s) ← e.value s
  return (roundAnswer x, { s with ans := some (roundAnswer x) })

end Expression

namespace Postfix

/-- Running the postorder of an expression puts its value on top of the values that are
there. Witness: induction on the expression, each node runs behind its operands.
-/
theorem run_postorder (e : Expression) (m : Machine)
    : e.postorder.foldlM Machine.step m
      = do
        let (x, state) ← e.value m.state
        return { values := x :: m.values, state } := by
  induction e generalizing m with
  | number x => rfl
  | constant c =>
      simp only [Expression.postorder, Expression.value, List.foldlM_cons, List.foldlM_nil,
        Machine.step]
      cases c.value? m.state <;> rfl
  | modeCall f => rfl
  | call f argument ih =>
      simp only [Expression.postorder, Expression.value, List.foldlM_append, List.foldlM_cons,
        List.foldlM_nil, ih, bind_assoc, pure_bind, bind_pure]
      rfl
  | powerCall base exponent base_ih exponent_ih =>
      simp only [Expression.postorder, Expression.value, List.foldlM_append, List.foldlM_cons,
        List.foldlM_nil, base_ih, exponent_ih, bind_assoc, pure_bind, bind_pure]
      rfl
  | operation op left right left_ih right_ih =>
      simp only [Expression.postorder, Expression.value, List.foldlM_append, List.foldlM_cons,
        List.foldlM_nil, left_ih, right_ih, bind_assoc, pure_bind, bind_pure]
      rfl

/-- Evaluating the postorder of an expression answers the expression, failures included. -/
theorem evaluate_postorder (e : Expression) (s : State)
    : evaluate e.postorder s = e.answer s := by
  simp only [evaluate, run_postorder, Expression.answer, bind_assoc, pure_bind]
  rfl

end Postfix

end Calculator
