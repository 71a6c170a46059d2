import Calculator.Proofs.Phrase.Basic
import Calculator.Proofs.Postfix.Conversion

/-! Converting an explicit phrase gives the postorder of its expression. The grammar decides
which operators may still wait behind a phrase: those that bind at least as tight as the
chain that the phrase is.
-/

namespace Calculator

open Postfix

/-- The operators of products bind tighter than those of sums. -/
theorem Operator.precedence_eq_two_iff {op : Operator}
    : op.precedence = 2 ↔ op = .mul ∨ op = .div ∨ op = .rem := by
  cases op <;> decide

theorem Operator.precedence_eq_one_iff {op : Operator}
    : op.precedence = 1 ↔ op = .add ∨ op = .sub := by
  cases op <;> decide

/-- The least precedence of an operator that may wait behind a phrase of a category. No
operator waits behind a primary.
-/
def Category.level : Category → Nat
  | primary => 4
  | power | signed => 3
  | term => 2
  | sum => 1

namespace Phrase

variable {category : Category}

/-- The tokens of a phrase take every converter that is ready for it to one that holds its
expression.
-/
def Converts {category : Category} (p : Phrase .explicit category) : Prop :=
  ∀ c : Converter, c.Ready → Converter.Admits c.stack category.level
    → ∃ d, p.tokens.foldlM Converter.push c = .ok d
        ∧ d.Holds p.expression category.level c.stack c.output

/-- An operation converts its operands around its operator. Witness: the operator releases
what waits behind the left operand and waits itself behind the right one.
-/
theorem converts_operation {left right : Category} {a : Phrase .explicit left}
    {b : Phrase .explicit right} {op : Operator} {level : Nat} (a_h : a.Converts)
    (b_h : b.Converts) (looser : level ≤ left.level) (bound : level = op.precedence)
    (bind : ∀ waiting : Operator, left.level ≤ waiting.precedence
      → waiting.bindsBefore op = true)
    (tighter : level ≤ right.level)
    (through : ∀ stack, Converter.Admits (.operator op :: stack) right.level)
    {c : Converter} (ready : c.Ready) (admits : Converter.Admits c.stack level)
    : ∃ d, (a.tokens ++ .operator op :: b.tokens).foldlM Converter.push c = .ok d
        ∧ d.Holds (.operation op a.expression b.expression) level c.stack c.output := by
  obtain ⟨behind, run_a, holds_a⟩ := a_h c ready (admits.mono looser)
  have operator := holds_a.push_operator bind (bound ▸ admits)
  obtain ⟨d, run_b, holds_b⟩ := b_h _ (Converter.ready_operator op c.stack _) (through c.stack)
  refine ⟨d, ?_, holds_b.operation tighter (Nat.le_of_eq bound)⟩
  simp only [List.foldlM_append, List.foldlM_cons, run_a, ok_bind, operator, run_b]

/-- A chain goes on from the left. Its next operand is of the category that binds tighter by one
level.
-/
theorem converts_chained {left right : Category} {a : Phrase .explicit left}
    {b : Phrase .explicit right} {op : Operator} (a_h : a.Converts) (b_h : b.Converts)
    (level : op.precedence = left.level) (other : op ≠ .pow) (next : right.level = left.level + 1)
    {c : Converter} (ready : c.Ready) (admits : Converter.Admits c.stack left.level)
    : ∃ d, (a.tokens ++ .operator op :: b.tokens).foldlM Converter.push c = .ok d
        ∧ d.Holds (.operation op a.expression b.expression) left.level c.stack c.output := by
  refine converts_operation a_h b_h (Nat.le_refl _) level.symm ?_ (by omega) ?_ ready admits
  · exact fun waiting bound => Converter.bindsBefore_of_le other (level ▸ bound)
  · intro stack
    rw [next, ← level]
    exact .operator op stack

/-- A phrase of a looser category with the same tokens converts as well. -/
theorem Converts.loosen {tight loose : Category} {p : Phrase .explicit tight}
    {q : Phrase .explicit loose} (h : p.Converts) (tokens : q.tokens = p.tokens)
    (expression : q.expression = p.expression) (le : loose.level ≤ tight.level)
    : q.Converts := by
  intro c ready admits
  obtain ⟨d, run, holds⟩ := h c ready (admits.mono le)
  exact ⟨d, tokens ▸ run, expression ▸ holds.mono le⟩

/-- A value is put into the output at once. -/
theorem converts_value {p : Phrase .explicit .primary} {t : Token} (tokens : p.tokens = [t])
    (postorder : p.expression.postorder = [t]) (value : t.isValue)
    : p.Converts := by
  intro c ready _
  have run : p.tokens.foldlM Converter.push c = .ok ⟨c.stack, t :: c.output, some t⟩ := by
    simp [tokens, ready.push_value value]
  refine ⟨_, run, .complete ?_ ?_ rfl ?_⟩
  · intro f same
    cases same
    cases value
  · intro same
    cases same
    cases value
  · simp [postorder]

/-- A bare function goes to the output when the next token is not its bracket. -/
theorem converts_bare (f : ModeFunction)
    : (bare f : Phrase .explicit .primary).Converts := by
  intro c ready _
  refine ⟨⟨.function (.nullary f) :: c.stack, c.output, some (.function (.nullary f))⟩, ?_,
    by simp, [], .function (.nullary f) :: c.output, ?_, by simp, rfl⟩
  · simp [tokens, ready.push_function]
  · intro next closed
    simp [Converter.settle, Converter.callBare, closed, Function.arity]

/-- A call without arguments. Witness: a bracket that closes at once has none. -/
theorem converts_modeCall (f : ModeFunction)
    : (modeCall f : Phrase .explicit .primary).Converts := by
  intro c ready _
  have run : (modeCall f : Phrase .explicit .primary).tokens.foldlM Converter.push c
      = .ok ⟨c.stack, .function (.nullary f) :: c.output, some .closeBracket⟩ := by
    simp only [tokens, List.foldlM_cons, ready.push_function, ok_bind,
      Converter.push_openBracket_of_call]
    rfl
  exact ⟨_, run, .complete (by simp) (by simp) rfl rfl⟩

/-- A call with one argument. Witness: the argument is converted behind the opening bracket, and the
closing one completes the call.
-/
theorem converts_call (f : UnaryFunction) {argument : Phrase .explicit .sum}
    (h : argument.Converts)
    : (call f argument).Converts := by
  intro c ready _
  obtain ⟨d, run, holds⟩ :=
    h _ (Converter.ready_openBracket 1 (.function (.unary f) :: c.stack) c.output)
      (.bracket 1 _ _)
  have closing := Converter.Holds.push_closeBracket_of_call (f := .unary f) holds
  have run : (call f argument).tokens.foldlM Converter.push c
      = .ok ⟨c.stack, (call f argument).expression.postorder.reverse ++ c.output,
        some .closeBracket⟩ := by
    simp [tokens, expression, Expression.postorder, ready.push_function,
      Converter.push_openBracket_of_call, run, closing]
  exact ⟨_, run, .complete (by simp) (by simp) rfl rfl⟩

/-- The call with two arguments. Witness: the separator between them is counted, so the closing
bracket completes the call.
-/
theorem converts_powerCall {base exponent : Phrase .explicit .sum} (base_h : base.Converts)
    (exponent_h : exponent.Converts)
    : (powerCall base exponent).Converts := by
  intro c ready _
  obtain ⟨behind, run_base, holds_base⟩ :=
    base_h _ (Converter.ready_openBracket 1 (.function .power :: c.stack) c.output)
      (.bracket 1 _ _)
  have separator := holds_base.push_separator
  obtain ⟨d, run, holds⟩ :=
    exponent_h _
      (Converter.ready_separator 2 (.function .power :: c.stack)
        (base.expression.postorder.reverse ++ c.output))
      (.bracket 2 _ _)
  have closing := Converter.Holds.push_closeBracket_of_call (f := .power) holds
  have run : (powerCall base exponent).tokens.foldlM Converter.push c
      = .ok ⟨c.stack, (powerCall base exponent).expression.postorder.reverse ++ c.output,
        some .closeBracket⟩ := by
    simp [tokens, expression, Expression.postorder, ready.push_function,
      Converter.push_openBracket_of_call, run_base, separator, run, closing]
  exact ⟨_, run, .complete (by simp) (by simp) rfl rfl⟩

/-- Brackets around an expression leave its postorder as it is. -/
theorem converts_bracketed {inner : Phrase .explicit .sum} (h : inner.Converts)
    : (bracketed inner).Converts := by
  intro c ready _
  obtain ⟨d, run, holds⟩ :=
    h _ (Converter.ready_openBracket 1 c.stack c.output) (.bracket 1 _ _)
  have closing := holds.push_closeBracket_of_group ready.stack
  have run : (bracketed inner).tokens.foldlM Converter.push c
      = .ok ⟨c.stack, inner.expression.postorder.reverse ++ c.output, some .closeBracket⟩ := by
    simp [tokens, ready.push_openBracket, run, closing]
  exact ⟨_, run, .complete (by simp) (by simp) rfl rfl⟩

/-- Every explicit phrase converts. Witness: induction on the phrase. Inside brackets nothing
waits below, and around an operator the categories of the operands admit each other.
-/
theorem converts (p : Phrase .explicit category)
    : p.Converts := by
  induction p with
  | number x => exact converts_value rfl rfl rfl
  | constant x => exact converts_value rfl rfl rfl
  | bare f => exact converts_bare f
  | modeCall f => exact converts_modeCall f
  | call f argument ih => exact converts_call f ih
  | powerCall base exponent base_ih exponent_ih => exact converts_powerCall base_ih exponent_ih
  | bracketed inner ih => exact converts_bracketed ih
  | single operand ih | unsigned operand ih | factor operand ih | summand operand ih =>
      exact ih.loosen rfl rfl (by decide)
  | raised base exponent base_ih exponent_ih =>
      intro c ready admits
      refine converts_operation base_ih exponent_ih (by decide) rfl ?_ (by decide) ?_ ready admits
      · intro waiting bound
        cases waiting <;> simp [Category.level, Operator.precedence] at bound
      · exact fun stack => .power _
  | plus allowed _ _ | minus allowed _ _ => cases allowed
  | scaled op level left right left_ih right_ih =>
      have level := Operator.precedence_eq_two_iff.mpr level
      exact fun _ => converts_chained left_ih right_ih level (by rintro rfl; cases level) rfl
  | combined op level left right left_ih right_ih =>
      have level := Operator.precedence_eq_one_iff.mpr level
      exact fun _ => converts_chained left_ih right_ih level (by rintro rfl; cases level) rfl
  | juxtaposed allowed _ _ _ _ => cases allowed

end Phrase

end Calculator
