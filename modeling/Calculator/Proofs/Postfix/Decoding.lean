import Calculator.Proofs.Expression
import Calculator.Proofs.Operation
import Calculator.Proofs.Postfix.Evaluation

/-! Reading postfix tokens back as an expression. Each token takes the expressions that are its
operands, so a token list is the postorder of at most one expression, and the token lists that
have a value are the postorders of expressions.
-/

namespace Calculator

namespace Expression

--------------------------------------------------------------------------------
-- The expression of a postorder
--------------------------------------------------------------------------------

/-- Puts a token behind complete expressions, the newest first. It takes the operands that it
needs, if they are there.
-/
def attach : List Expression → Token → Option (List Expression)
  | complete, .number x => some (number x :: complete)
  | complete, .constant c => some (constant c :: complete)
  | complete, .function (.nullary f) => some (modeCall f :: complete)
  | argument :: complete, .function (.unary f) => some (call f argument :: complete)
  | exponent :: base :: complete, .function .power => some (powerCall base exponent :: complete)
  | right :: left :: complete, .operator op => some (operation op left right :: complete)
  | _, _ => none

/-- The expression whose postorder a token list is. -/
def ofPostorder? (tokens : List Token) : Option Expression :=
  match tokens.foldlM attach [] with
  | some [e] => some e
  | _ => none

/-- The postorders of complete expressions, the oldest first. -/
def postorders (complete : List Expression) : List Token :=
  complete.reverse.flatMap postorder

@[simp]
theorem postorders_cons (e : Expression) (complete : List Expression)
    : postorders (e :: complete) = postorders complete ++ e.postorder := by
  simp [postorders]

/-- The postorder of an expression is put together to the expression again. Witness: induction
on the expression, each node finds its operands complete.
-/
theorem foldlM_attach_postorder (e : Expression) (complete : List Expression)
    : e.postorder.foldlM attach complete = some (e :: complete) := by
  induction e generalizing complete with
  | number x | constant c | modeCall f => rfl
  | call f argument ih => simp [postorder, ih, attach]
  | powerCall base exponent base_ih exponent_ih =>
      simp [postorder, base_ih, exponent_ih, attach]
  | operation op left right left_ih right_ih => simp [postorder, left_ih, right_ih, attach]

/-- A token stands behind the postorders of its operands. -/
theorem postorders_attach {complete next : List Expression} {t : Token}
    (attached : attach complete t = some next)
    : postorders next = postorders complete ++ [t] := by
  unfold attach at attached
  split at attached <;> cases attached <;> simp [postorder]

/-- Attaching tokens puts them behind the postorders of the expressions. Witness: induction on the
tokens.
-/
theorem postorders_foldlM_attach {tokens : List Token} {complete final : List Expression}
    (run : tokens.foldlM attach complete = some final)
    : postorders final = postorders complete ++ tokens := by
  induction tokens generalizing complete with
  | nil =>
      obtain rfl : complete = final := by simpa using run
      simp
  | cons t rest ih =>
      obtain ⟨next, attached, run⟩ := Option.bind_eq_some_iff.mp (by simpa using run)
      rw [ih run, postorders_attach attached, List.append_assoc, List.singleton_append]

/-- Reading a token list as an expression finds the one that has it as its postorder. -/
theorem ofPostorder?_eq_some_iff {tokens : List Token} {e : Expression}
    : ofPostorder? tokens = some e ↔ e.postorder = tokens := by
  constructor
  · intro decoded
    unfold ofPostorder? at decoded
    split at decoded
    · rename_i single run
      cases decoded
      simpa [postorders] using postorders_foldlM_attach run
    · cases decoded
  · rintro rfl
    rw [ofPostorder?, foldlM_attach_postorder]

/-- No two expressions have the same postorder. -/
theorem postorder_injective
    : Function.Injective postorder := by
  intro e e' same
  have decoded := ofPostorder?_eq_some_iff.mpr same
  rw [ofPostorder?_eq_some_iff.mpr rfl, Option.some.injEq] at decoded
  exact decoded.symm

--------------------------------------------------------------------------------
-- Failures of an expression
--------------------------------------------------------------------------------

/-- An expression leaves the last answer alone. -/
theorem ans_of_value {e : Expression} {s after : State} {x : Float}
    (value : e.value s = .ok (x, after))
    : after.ans = s.ans := by
  have run := Postfix.run_postorder e { state := s }
  rw [value] at run
  have state := Postfix.run_state run
  rw [State.toggleMode_iterate] at state
  change after = _ at state
  rw [state]
  split <;> rfl

/-- An operation on two operands fails with one of them, the left one first, or with its own
result.
-/
theorem failed_of_operands {left right : Expression} {s : State} {failure : CalcError}
    {result : Float → Float → Except CalcError Float}
    (failed
      : (do
          let (a, between) ← left.value s
          let (b, after) ← right.value between
          return (← result a b, after))
        = Except.error failure)
    : left.value s = .error failure
      ∨ (∃ between, between.ans = s.ans ∧ right.value between = .error failure)
      ∨ ∃ a b, result a b = .error failure := by
  rcases bind_eq_error_iff.mp failed with failed | ⟨⟨a, between⟩, value, failed⟩
  · exact .inl failed
  · rcases bind_eq_error_iff.mp failed with failed | ⟨⟨b, after⟩, _, failed⟩
    · exact .inr (.inl ⟨between, ans_of_value value, failed⟩)
    · rcases bind_eq_error_iff.mp failed with failed | ⟨x, _, failed⟩
      · exact .inr (.inr ⟨a, b, failed⟩)
      · cases failed

/-- Where the last answer is not missing, only operations fail. Witness: induction on the
expression; the operands on the left leave the last answer to those on the right.
-/
theorem isArithmetic_of_value {e : Expression} {s : State} {failure : CalcError}
    (defined : .constant .ans ∈ e.postorder → s.ans ≠ none) (failed : e.value s = .error failure)
    : failure.IsArithmetic := by
  induction e generalizing s with
  | number x | modeCall f => cases failed
  | constant c =>
      cases c with
      | pi | e => cases failed
      | ans =>
          obtain ⟨x, last⟩ := Option.ne_none_iff_exists'.mp (defined (by simp [postorder]))
          simp only [value, Constant.value?, last] at failed
          cases failed
  | call f argument ih =>
      rcases bind_eq_error_iff.mp failed with failed | ⟨⟨x, after⟩, _, failed⟩
      · exact ih (fun asked => defined (List.mem_append_left _ asked)) failed
      · rcases bind_eq_error_iff.mp failed with failed | ⟨y, _, failed⟩
        · exact (UnaryFunction.apply_isProper _ _ _).isArithmetic failed
        · cases failed
  | powerCall base exponent base_ih exponent_ih =>
      simp only [postorder, List.mem_append, or_imp] at defined
      rcases failed_of_operands failed with failed | ⟨between, same, failed⟩ | ⟨a, b, failed⟩
      · exact base_ih defined.1.1 failed
      · exact exponent_ih (same ▸ defined.1.2) failed
      · exact (powerResult_isProper _ _ _).isArithmetic failed
  | operation op left right left_ih right_ih =>
      simp only [postorder, List.mem_append, or_imp] at defined
      rcases failed_of_operands failed with failed | ⟨between, same, failed⟩ | ⟨a, b, failed⟩
      · exact left_ih defined.1.1 failed
      · exact right_ih (same ▸ defined.1.2) failed
      · exact (Operator.apply_isProper _ _ _).isArithmetic failed

end Expression

namespace Postfix

open Machine

--------------------------------------------------------------------------------
-- What has a value is a postorder
--------------------------------------------------------------------------------

/-- A token that finds its operands completes one expression in their place. -/
theorem exists_attach {t : Token} {taken : Nat} (takes : operands? t = some taken)
    {complete : List Expression} (enough : taken ≤ complete.length)
    : ∃ e, Expression.attach complete t = some (e :: complete.drop taken) := by
  cases t with
  | number x | constant c =>
      cases takes
      exact ⟨_, rfl⟩
  | operator op =>
      cases takes
      match complete, enough with
      | _ :: _ :: _, _ => exact ⟨_, rfl⟩
  | function f =>
      cases f with
      | nullary f =>
          cases takes
          exact ⟨_, rfl⟩
      | unary f =>
          cases takes
          match complete, enough with
          | _ :: _, _ => exact ⟨_, rfl⟩
      | power =>
          cases takes
          match complete, enough with
          | _ :: _ :: _, _ => exact ⟨_, rfl⟩
  | openBracket | closeBracket | separator => cases takes

/-- As long as the machine runs, there is a complete expression for each of its values. -/
theorem exists_foldlM_attach {tokens : List Token} {m final : Machine}
    {complete : List Expression} (same : complete.length = m.values.length)
    (run : tokens.foldlM Machine.step m = .ok final)
    : ∃ built, tokens.foldlM Expression.attach complete = some built
        ∧ built.length = final.values.length := by
  induction tokens generalizing m complete with
  | nil =>
      cases run
      exact ⟨complete, rfl, same⟩
  | cons t rest ih =>
      obtain ⟨next, stepped, run⟩ := bind_eq_ok_iff.mp (by simpa using run)
      obtain ⟨x, operands, below, takes, values, replaced, _⟩ := step_eq_ok stepped
      have length := congrArg List.length values
      rw [List.length_append] at length
      have enough : operands.length ≤ complete.length := by omega
      obtain ⟨e, attached⟩ := exists_attach takes enough
      have lengths : (e :: complete.drop operands.length).length = next.values.length := by
        rw [replaced, List.length_cons, List.length_cons, List.length_drop]
        omega
      obtain ⟨built, decoded, final_length⟩ := ih lengths run
      refine ⟨built, ?_, final_length⟩
      rw [List.foldlM_cons, attached]
      exact decoded

/-- A token list that has a value is a postorder. -/
theorem exists_postorder_of_evaluate {tokens : List Token} {s next : State} {x : Float}
    (evaluated : evaluate tokens s = .ok (x, next))
    : ∃ e : Expression, e.postorder = tokens := by
  obtain ⟨m, run, answered⟩ := bind_eq_ok_iff.mp evaluated
  obtain ⟨y, single, _⟩ := bind_eq_ok_iff.mp answered
  obtain ⟨built, decoded, length⟩ := @exists_foldlM_attach _ _ _ [] rfl run
  obtain ⟨v, values, _⟩ := exists_of_answer single
  rw [values] at length
  obtain ⟨e, rfl⟩ := List.length_eq_one_iff.mp length
  exact ⟨e, Expression.ofPostorder?_eq_some_iff.mp (by rw [Expression.ofPostorder?, decoded])⟩

/-- Exactly the postorders of expressions can have a value. A token list with an answer is the
postorder of one expression only, and the answer is that of the expression. The postorder of
an expression is answered like the expression, from left to right, and where the last answer
is not missing only its operations fail.
-/
theorem evaluate_decodes_postorders
    : (∀ tokens s x next, evaluate tokens s = .ok (x, next)
        → ∃ e : Expression, e.postorder = tokens ∧ (∀ e', e'.postorder = tokens → e' = e)
          ∧ e.answer s = .ok (x, next))
      ∧ ∀ (e : Expression) s, (.constant .ans ∈ e.postorder → s.ans ≠ none)
        → evaluate e.postorder s = e.answer s
          ∧ ∀ failure, evaluate e.postorder s = .error failure → failure.IsArithmetic := by
  constructor
  · intro tokens s x next evaluated
    obtain ⟨e, rfl⟩ := exists_postorder_of_evaluate evaluated
    refine ⟨e, rfl, fun e' same => Expression.postorder_injective same, ?_⟩
    rw [← evaluate_postorder]
    exact evaluated
  · intro e s defined
    refine ⟨evaluate_postorder e s, fun failure failed => ?_⟩
    rw [evaluate_postorder] at failed
    rcases bind_eq_error_iff.mp failed with failed | ⟨pair, _, failed⟩
    · exact Expression.isArithmetic_of_value defined failed
    · cases failed

/-- The tokens `mode tog -` are the postorder of a difference, whose operands see the angle mode
in turn. In a state with an answer the operations of `ans tog /` could only fail as such.
-/
theorem evaluate_decodes_postorders_difference
    : let tokens : List Token :=
        [.function (.nullary .current), .function (.nullary .toggle), .operator .sub]
      let quotient : Expression := .operation .div (.constant .ans) (.modeCall .toggle)
      let x := roundAnswer (0 - 1)
      let s : State := { mode := .degree, ans := some 1 }
      evaluate tokens {} = .ok (x, { mode := .degree, ans := some x })
        ∧ (∃ e : Expression, e.postorder = tokens ∧ (∀ e', e'.postorder = tokens → e' = e)
          ∧ e.answer {} = .ok (x, { mode := .degree, ans := some x }))
        ∧ s.ans ≠ none
        ∧ evaluate quotient.postorder s = quotient.answer s
        ∧ ∀ failure, evaluate quotient.postorder s = .error failure → failure.IsArithmetic := by
  intro tokens quotient x s
  have difference : Operator.apply .sub 0 1 = .ok ((0 : Float) - 1) := by
    have number : ((0 : Float) - 1).isNaN = false := by decide +kernel
    have finite : ((0 : Float) - 1).isInf = false := by decide +kernel
    change finiteResult (.operator .sub) (0 - 1) = _
    rw [finiteResult, number, finite, if_neg Bool.false_ne_true, if_neg Bool.false_ne_true]
  have evaluated : evaluate tokens {} = .ok (x, { mode := .degree, ans := some x }) := by
    change (Operator.apply .sub 0 1 >>= fun x => _) >>= _ = _
    rw [difference]
    rfl
  have last : s.ans ≠ none := by simp [s]
  obtain ⟨decoded, answered⟩ := evaluate_decodes_postorders
  exact ⟨evaluated, decoded tokens {} x _ evaluated, last, answered quotient s fun _ => last⟩

end Postfix

end Calculator
