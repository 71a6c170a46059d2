import Calculator.Postfix.Conversion
import Calculator.Proofs.Expression

/-! How the converter works through a complete expression. Behind the tokens of an expression
its postorder is in the output except for operators that still wait, and whatever ends the
expression releases those.
-/

namespace Calculator.Postfix

namespace Converter

/-- The operators of a list as they leave the stack, the newest output first. -/
def released (ops : List Operator) (output : List Token) : List Token :=
  (ops.map .operator).reverse ++ output

/-- Operators are released down to the bracket below them. -/
theorem releaseToBracket_operators (ops : List Operator) (arguments : Nat)
    (below : List Waiting) (output : List Token)
    : releaseToBracket (ops.map .operator ++ .bracket arguments :: below) output
      = some (arguments, below, released ops output) := by
  induction ops generalizing output with
  | nil => rfl
  | cons op ops ih => simp [releaseToBracket, released, ih]

theorem releaseAll_operators (ops : List Operator) (output : List Token)
    : releaseAll (ops.map .operator) output = some (released ops output) := by
  induction ops generalizing output with
  | nil => rfl
  | cons op ops ih => simp [releaseAll, released, ih]

/-- An operator that groups from the left lets each operator of at least its precedence have
its right operand.
-/
theorem bindsBefore_of_le {waiting op : Operator} (chain : op ≠ .pow)
    (le : op.precedence ≤ waiting.precedence)
    : waiting.bindsBefore op = true := by
  have left : op.isRightAssociative = false := by simpa [Operator.isRightAssociative] using chain
  rcases Nat.lt_or_eq_of_le le with lt | eq
  · simp [Operator.bindsBefore, lt]
  · simp [Operator.bindsBefore, eq, left]

/-- The stack below an expression lets its operators through: no operator on top of it binds
before an operator of at least the given precedence.
-/
def Admits (stack : List Waiting) (level : Nat) : Prop :=
  ∀ top rest, stack = .operator top :: rest
    → ∀ op : Operator, level ≤ op.precedence → top.bindsBefore op = false

theorem Admits.mono {stack : List Waiting} {level tighter : Nat} (h : Admits stack level)
    (le : level ≤ tighter)
    : Admits stack tighter :=
  fun top rest same op bound => h top rest same op (Nat.le_trans le bound)

theorem Admits.bracket (arguments : Nat) (stack : List Waiting) (level : Nat)
    : Admits (.bracket arguments :: stack) level := by
  intro top rest same
  cases same

/-- An operator lets everything through that binds tighter. -/
theorem Admits.operator (op : Operator) (stack : List Waiting)
    : Admits (.operator op :: stack) (op.precedence + 1) := by
  intro top rest same next bound
  cases same
  simp only [Operator.bindsBefore, Bool.or_eq_false_iff, Bool.and_eq_false_imp, beq_iff_eq,
    decide_eq_false_iff_not]
  omega

/-- A power sign is never kept waiting by what is below it. -/
theorem Admits.power (stack : List Waiting)
    : Admits stack 3 := by
  intro top rest _ op bound
  cases op <;> simp [Operator.precedence] at bound
  cases top <;> rfl

/-- An operator releases those that bind before it and stops at what it may stand on. Witness:
induction on the operators that are released.
-/
theorem releaseBefore_operators {op : Operator} {ops : List Operator} {below : List Waiting}
    (bind : ∀ waiting ∈ ops, waiting.bindsBefore op = true)
    (admits : Admits below op.precedence) (output : List Token)
    : releaseBefore op (ops.map .operator ++ below) output = (below, released ops output) := by
  induction ops generalizing output with
  | nil =>
      cases below with
      | nil => rfl
      | cons top rest =>
          cases top with
          | operator top =>
              have keeps := admits top rest rfl op (Nat.le_refl _)
              simp [releaseBefore, keeps, released]
          | function f => rfl
          | bracket arguments => rfl
  | cons waiting ops ih =>
      have binds := bind waiting (by simp)
      have rest := ih (fun w member => bind w (by simp [member])) (.operator waiting :: output)
      simp [releaseBefore, binds, released, rest]

--------------------------------------------------------------------------------
-- Converters before and behind an expression
--------------------------------------------------------------------------------

/-- An expression may begin: no function waits for its brackets. -/
structure Ready (c : Converter) : Prop where
  last : ∀ f, c.last ≠ some (.function f)
  stack : ∀ f, c.stack.head? ≠ some (.function f)

/-- The converter is behind the tokens of the expression `e`, which began on the stack `below`
with the output `output`. The operators that still wait have at least precedence `level`.
-/
structure Holds (c : Converter) (e : Expression) (level : Nat) (below : List Waiting)
    (output : List Token) : Prop where
  last : c.last ≠ some .openBracket
  settled
    : ∃ (ops : List Operator) (complete : List Token),
        (∀ next, next ≠ some .openBracket
          → c.settle next = .ok ⟨ops.map .operator ++ below, complete, c.last⟩)
        ∧ (∀ op ∈ ops, level ≤ op.precedence)
        ∧ released ops complete = e.postorder.reverse ++ output

/-- Only a function in last place is settled. -/
theorem settle_of_last {c : Converter} (last : ∀ f, c.last ≠ some (.function f))
    (next : Option Token)
    : c.settle next = .ok c := by
  unfold Converter.settle
  split
  · rename_i f same
    exact absurd same (last f)
  · rfl

theorem Ready.settle {c : Converter} (ready : c.Ready) (next : Option Token)
    : c.settle next = .ok c :=
  settle_of_last ready.last next

theorem ready_operator (op : Operator) (stack : List Waiting) (output : List Token)
    : Ready ⟨.operator op :: stack, output, some (.operator op)⟩ where
  last := by simp
  stack := by simp

theorem ready_openBracket (arguments : Nat) (stack : List Waiting) (output : List Token)
    : Ready ⟨.bracket arguments :: stack, output, some .openBracket⟩ where
  last := by simp
  stack := by simp

theorem ready_separator (arguments : Nat) (stack : List Waiting) (output : List Token)
    : Ready ⟨.bracket arguments :: stack, output, some .separator⟩ where
  last := by simp
  stack := by simp

theorem Ready.push_openBracket {c : Converter} (ready : c.Ready)
    : c.push .openBracket = .ok ⟨.bracket 1 :: c.stack, c.output, some .openBracket⟩ := by
  rw [push, ready.settle, ok_bind]
  rfl

theorem Ready.push_function {c : Converter} (ready : c.Ready) (f : Function)
    : c.push (.function f) = .ok ⟨.function f :: c.stack, c.output, some (.function f)⟩ := by
  rw [push, ready.settle, ok_bind]
  rfl

/-- A value goes straight to the output. -/
theorem Ready.push_value {c : Converter} (ready : c.Ready) {t : Token} (value : t.isValue)
    : c.push t = .ok ⟨c.stack, t :: c.output, some t⟩ := by
  rw [push, ready.settle, ok_bind]
  cases t <;> first | rfl | simp [Token.isValue] at value

/-- A function keeps waiting while its bracket opens. -/
theorem push_openBracket_of_call (f : Function) (stack : List Waiting) (output : List Token)
    : push ⟨stack, output, some (.function f)⟩ .openBracket
      = .ok ⟨.bracket 1 :: stack, output, some .openBracket⟩ :=
  rfl

/-- A complete output without waiting operators. -/
theorem Holds.complete {c : Converter} {e : Expression} {level : Nat} {below : List Waiting}
    {output : List Token} (settled : ∀ f, c.last ≠ some (.function f))
    (last : c.last ≠ some .openBracket) (stack : c.stack = below)
    (complete : c.output = e.postorder.reverse ++ output)
    : c.Holds e level below output := by
  subst stack
  refine ⟨last, [], c.output, ?_, by simp, complete⟩
  intro next _
  exact settle_of_last settled next

theorem Holds.mono {c : Converter} {e : Expression} {level looser : Nat}
    {below : List Waiting} {output : List Token} (h : c.Holds e level below output)
    (le : looser ≤ level)
    : c.Holds e looser below output := by
  obtain ⟨last, ops, complete, settled, bound, eq⟩ := h
  exact ⟨last, ops, complete, settled, fun op member => Nat.le_trans le (bound op member), eq⟩

/-- The right operand of a waiting operator completes the operation. -/
theorem Holds.operation {c : Converter} {op : Operator} {left right : Expression}
    {level tighter : Nat} {below : List Waiting} {output : List Token}
    (h : c.Holds right tighter (.operator op :: below) (left.postorder.reverse ++ output))
    (le : level ≤ tighter) (bound : level ≤ op.precedence)
    : c.Holds (.operation op left right) level below output := by
  obtain ⟨last, ops, complete, settled, bounds, eq⟩ := h
  refine ⟨last, ops ++ [op], complete, ?_, ?_, ?_⟩
  · intro next closed
    simpa using settled next closed
  · intro o member
    rcases List.mem_append.mp member with member | member
    · exact Nat.le_trans le (bounds o member)
    · obtain rfl := List.mem_singleton.mp member
      exact bound
  · simp only [released, List.map_append, List.reverse_append] at eq ⊢
    simp [Expression.postorder, eq]

theorem closingStack_of_last {c : Converter} (last : c.last ≠ some .openBracket)
    : c.closingStack = c.stack := by
  unfold closingStack
  split
  · contradiction
  · rfl

/-- A group on which no function is called is complete if it has at most one argument. -/
theorem completeGroup_of_free {c : Converter} {arguments : Nat} {stack : List Waiting}
    {output : List Token} (free : ∀ f, stack.head? ≠ some (.function f))
    : c.completeGroup arguments stack output
      = if 1 < arguments then .error .misplacedSeparator else .ok { c with stack, output } := by
  unfold completeGroup
  split
  · exact absurd rfl (free _)
  · rfl

theorem completeGroup_of_group {c : Converter} {arguments : Nat} {stack : List Waiting}
    {output : List Token} (free : ∀ f, stack.head? ≠ some (.function f))
    (single : arguments ≤ 1)
    : c.completeGroup arguments stack output = .ok { c with stack, output } := by
  rw [completeGroup_of_free free, if_neg (by omega)]

theorem completeGroup_of_call (c : Converter) (f : Function) (stack : List Waiting)
    (output : List Token)
    : c.completeGroup f.arity (.function f :: stack) output
      = .ok { c with stack, output := .function f :: output } :=
  if_pos rfl

--------------------------------------------------------------------------------
-- What ends an expression
--------------------------------------------------------------------------------

section

variable {c : Converter} {e : Expression} {level : Nat} {below : List Waiting}
variable {output : List Token}

/-- An operator that all waiting operators bind before takes the expression as its left
operand.
-/
theorem Holds.push_operator (h : c.Holds e level below output) {op : Operator}
    (bind : ∀ waiting : Operator, level ≤ waiting.precedence → waiting.bindsBefore op = true)
    (admits : Admits below op.precedence)
    : c.push (.operator op)
      = .ok ⟨.operator op :: below, e.postorder.reverse ++ output, some (.operator op)⟩ := by
  obtain ⟨last, ops, complete, settled, bounds, eq⟩ := h
  have releases := releaseBefore_operators (fun w member => bind w (bounds w member)) admits
    complete
  rw [push, settled _ (by simp), ok_bind]
  simp [take, releases, eq]

/-- A separator ends an argument. -/
theorem Holds.push_separator {arguments : Nat}
    (h : c.Holds e level (.bracket arguments :: below) output)
    : c.push .separator
      = .ok
        ⟨.bracket (arguments + 1) :: below, e.postorder.reverse ++ output, some .separator⟩ := by
  obtain ⟨last, ops, complete, settled, bounds, eq⟩ := h
  rw [push, settled _ (by simp), ok_bind]
  simp [take, separate, releaseToBracket_operators, eq]

/-- Behind an expression a closing bracket completes its group. -/
theorem Holds.push_closeBracket {arguments : Nat}
    (h : c.Holds e level (.bracket arguments :: below) output)
    : ∃ d : Converter,
        c.push .closeBracket
          = (d.completeGroup arguments below (e.postorder.reverse ++ output)).map
            ({ · with last := some .closeBracket }) := by
  obtain ⟨last, ops, complete, settled, bounds, eq⟩ := h
  let d : Converter := ⟨ops.map .operator ++ .bracket arguments :: below, complete, c.last⟩
  have closing : d.closingStack = d.stack := closingStack_of_last last
  refine ⟨d, ?_⟩
  rw [push, settled _ (by simp), ok_bind, take, Converter.closeBracket, closing,
    releaseToBracket_operators, eq]
  dsimp only
  cases d.completeGroup arguments below (e.postorder.reverse ++ output) <;> rfl

/-- A group without a function is a single expression. -/
theorem Holds.push_closeBracket_of_group (h : c.Holds e level (.bracket 1 :: below) output)
    (free : ∀ f, below.head? ≠ some (.function f))
    : c.push .closeBracket
      = .ok ⟨below, e.postorder.reverse ++ output, some .closeBracket⟩ := by
  obtain ⟨d, push⟩ := h.push_closeBracket
  rw [push, completeGroup_of_group free (Nat.le_refl 1)]
  rfl

/-- The brackets of a call hold as many arguments as the function takes. -/
theorem Holds.push_closeBracket_of_call {f : Function}
    (h : c.Holds e level (.bracket f.arity :: .function f :: below) output)
    : c.push .closeBracket
      = .ok ⟨below, .function f :: (e.postorder.reverse ++ output), some .closeBracket⟩ := by
  obtain ⟨d, push⟩ := h.push_closeBracket
  rw [push, completeGroup_of_call]
  rfl

/-- The end of the tokens leaves the postorder. -/
theorem Holds.finish (h : c.Holds e level [] [])
    : c.finish = .ok e.postorder := by
  obtain ⟨last, ops, complete, settled, bounds, eq⟩ := h
  rw [Converter.finish, settled _ (by simp), ok_bind]
  simp [releaseAll_operators, eq]

end

end Converter

/-- A conversion that succeeds when nothing asks for a last answer also succeeds in a state,
unless the answer asked for is missing there. Witness: induction on the tokens.
-/
theorem foldlM_pushIn {tokens : List Token} {c d : Converter} (s : State)
    (run : tokens.foldlM Converter.push c = .ok d)
    : tokens.foldlM (Converter.pushIn s) c
      = if .constant .ans ∈ tokens ∧ s.ans = none then .error .ansUndefined else .ok d := by
  induction tokens generalizing c with
  | nil => simpa using run
  | cons t rest ih =>
      obtain ⟨next, push, run⟩ := bind_eq_ok_iff.mp (by simpa using run)
      rw [List.foldlM_cons, Converter.pushIn]
      by_cases missing : t = .constant .ans ∧ s.ans = none
      · simp [missing]
      · rw [if_neg missing, push, ok_bind, ih run]
        congr 1
        grind

theorem ofTokens_of_run {tokens : List Token} {d : Converter} (s : State)
    (run : tokens.foldlM Converter.push {} = .ok d)
    : ofTokens tokens s
      = if .constant .ans ∈ tokens ∧ s.ans = none then .error .ansUndefined else d.finish := by
  rw [ofTokens, foldlM_pushIn s run]
  split <;> rfl

end Calculator.Postfix
