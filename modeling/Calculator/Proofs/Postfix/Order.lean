import Calculator.Proofs.Infix.Balance
import Calculator.Proofs.Operation
import Calculator.Proofs.Postfix.Evaluation
import Calculator.Proofs.Sentence.Conversion

/-! What conversion to postfix order keeps. Operators and functions move behind their operands, and
everything that is a value by itself stays in order: a function without arguments waits for the
brackets of its call, but nothing can come between them.
-/

namespace Calculator

/-- Whether a token has a value without taking operands. -/
def Token.isLeaf : Token → Bool
  | number _ | constant _ | function (.nullary _) => true
  | _ => false

/-- The brackets of an arranged level are balanced. -/
theorem Arranged.foldlM_depthBehind {separators : Nat} {w : List Token}
    (arranged : Arranged separators w) (depth : Nat)
    : w.foldlM Postfix.depthBehind depth = some depth := by
  induction arranged generalizing depth with
  | nil => rfl
  | @value separators front t value arranged ih =>
      have opens : t ≠ .openBracket := by
        rintro rfl
        cases value
      have closes : t ≠ .closeBracket := by
        rintro rfl
        cases value
      simp [ih, Infix.depthBehind_of_ne opens closes]
  | bare f _ ih | operator op _ ih | separator _ ih => simp [ih, Postfix.depthBehind]
  | call f _ _ _ ih inner_ih | group _ _ _ _ ih inner_ih => simp [ih, inner_ih, Postfix.depthBehind]

namespace Postfix

--------------------------------------------------------------------------------
-- Functions that wait for the brackets of their call
--------------------------------------------------------------------------------

/-- A function without arguments waits below a bracket. -/
inductive Blocked : List Waiting → Prop where
  | call (separators : Nat) (f : ModeFunction) (stack : List Waiting)
    : Blocked (.bracket (separators + 1) :: .function (.nullary f) :: stack)
  | above (w : Waiting) {stack : List Waiting} (blocked : Blocked stack) : Blocked (w :: stack)

namespace Blocked

variable {stack below : List Waiting} {output complete : List Token}

theorem tail_of_operator {op : Operator} (blocked : Blocked (.operator op :: stack))
    : Blocked stack := by
  cases blocked with
  | above _ blocked => exact blocked

theorem tail_of_function {f : Function} (blocked : Blocked (.function f :: stack))
    : Blocked stack := by
  cases blocked with
  | above _ blocked => exact blocked

/-- An operator releases operators only, so a blocked call stays. -/
theorem releaseBefore (blocked : Blocked stack) (op : Operator) (output : List Token)
    : Blocked (Converter.releaseBefore op stack output).1 := by
  induction stack generalizing output with
  | nil => cases blocked
  | cons top stack ih =>
      cases top with
      | operator waiting =>
          unfold Converter.releaseBefore
          split
          · exact ih blocked.tail_of_operator _
          · exact blocked
      | function f => exact blocked
      | bracket arguments => exact blocked

/-- Releasing to a bracket keeps the function below it waiting. -/
theorem releaseToBracket {arguments : Nat} (blocked : Blocked stack)
    (released : Converter.releaseToBracket stack output = some (arguments, below, complete))
    : Blocked (.bracket arguments :: below) := by
  induction stack generalizing output with
  | nil => cases blocked
  | cons top stack ih =>
      cases top with
      | operator op => exact ih blocked.tail_of_operator released
      | function f => exact ih blocked.tail_of_function released
      | bracket counted =>
          cases released
          exact blocked

theorem recount {arguments : Nat} (blocked : Blocked (.bracket arguments :: stack))
    : Blocked (.bracket (arguments + 1) :: stack) := by
  cases blocked with
  | call separators f stack => exact .call (separators + 1) f stack
  | above _ blocked => exact .above _ blocked

/-- A function without arguments is not called on any. -/
theorem completeGroup {c d : Converter} {arguments : Nat}
    (blocked : Blocked (.bracket arguments :: stack))
    (completed : c.completeGroup arguments stack output = .ok d)
    : Blocked d.stack := by
  unfold Converter.completeGroup at completed
  split at completed
  case h_1 f stack =>
      split at completed
      case isTrue arity =>
          cases completed
          cases blocked with
          | call separators f stack => cases arity
          | above _ blocked => exact blocked.tail_of_function
      case isFalse => cases completed
  case h_2 stack free =>
      split at completed
      · cases completed
      · cases completed
        cases blocked with
        | call separators f stack => exact absurd rfl (free _ _)
        | above _ blocked => exact blocked

/-- What is blocked is never finished. -/
theorem releaseAll (blocked : Blocked stack) (output : List Token)
    : Converter.releaseAll stack output = none := by
  induction stack generalizing output with
  | nil => cases blocked
  | cons top stack ih =>
      cases top with
      | operator op => exact ih blocked.tail_of_operator _
      | function f => exact ih blocked.tail_of_function _
      | bracket arguments => rfl

end Blocked

namespace Converter

/-- The stack below a bracket that has just been opened, and else the whole stack. In it functions
wait for their arguments.
-/
def settledStack (c : Converter) : List Waiting :=
  if c.last = some .openBracket then c.stack.tail else c.stack

/-- A call that is blocked below a bracket that has just been opened is blocked in the whole stack.
-/
theorem blocked_stack {c : Converter} (blocked : Blocked c.settledStack)
    : Blocked c.stack := by
  unfold settledStack at blocked
  split at blocked
  · cases top : c.stack with
    | nil =>
        rw [top] at blocked
        cases blocked
    | cons w stack =>
        rw [top] at blocked
        exact .above w blocked
  · exact blocked

/-- A blocked call stays so where a bracket closes. -/
theorem blocked_closingStack {c : Converter} (blocked : Blocked c.settledStack)
    : Blocked c.closingStack := by
  have stack := blocked_stack blocked
  unfold closingStack
  split
  · rename_i last top
    rw [settledStack, if_pos last, top] at blocked
    exact .above _ blocked
  · exact stack

/-- Settling a function leaves a blocked call. Witness: a function that is completed was on top, and
the blocked one waits below a bracket.
-/
theorem blocked_settle {c d : Converter} {next : Option Token} (blocked : Blocked c.settledStack)
    (settled : c.settle next = .ok d)
    : Blocked d.settledStack := by
  unfold settle at settled
  split at settled
  · rename_i f last
    split at settled
    · cases settled
      exact blocked
    · have stack := blocked_stack blocked
      unfold callBare at settled
      split at settled
      · cases settled
      · cases settled
        simp only [settledStack, last, Option.some.injEq, reduceCtorEq, if_false]
        split
        · rename_i top
          obtain ⟨rest, same⟩ := List.head?_eq_some_iff.mp top
          rw [same] at stack ⊢
          exact stack.tail_of_function
        · exact stack
  · cases settled
    exact blocked

/-- A token that does not close a bracket leaves a function below one waiting. -/
theorem blocked_take {c d : Converter} {t : Token} (blocked : Blocked c.stack)
    (closes : t ≠ .closeBracket) (taken : c.take t = .ok d)
    : Blocked d.stack := by
  cases t with
  | number x | constant x =>
      cases taken
      exact blocked
  | operator op =>
      cases taken
      exact (blocked.releaseBefore op c.output).above _
  | function f =>
      cases taken
      exact blocked.above _
  | openBracket =>
      cases taken
      exact blocked.above _
  | closeBracket => contradiction
  | separator =>
      change c.separate = .ok d at taken
      unfold separate at taken
      split at taken
      · cases taken
      · rename_i arguments stack output released
        cases taken
        exact (blocked.releaseToBracket released).recount

/-- A token leaves a blocked call. Witness: closing the bracket of the call would fail, since an
argument is counted.
-/
theorem blocked_push {c d : Converter} {t : Token} (blocked : Blocked c.settledStack)
    (pushed : c.push t = .ok d)
    : Blocked d.settledStack := by
  obtain ⟨settled, taken, settling, taking, rfl⟩ := push_eq_ok_iff.mp pushed
  have waits := blocked_settle blocked settling
  by_cases closes : t = .closeBracket
  · subst closes
    change settled.closeBracket = .ok taken at taking
    unfold closeBracket at taking
    split at taking
    · cases taking
    · rename_i arguments stack output released
      have kept := ((blocked_closingStack waits).releaseToBracket released).completeGroup taking
      simpa [settledStack] using kept
  · have kept := blocked_take (blocked_stack waits) closes taking
    by_cases opens : t = .openBracket
    · subst opens
      cases taking
      exact blocked_stack waits
    · simpa [settledStack, opens] using kept

--------------------------------------------------------------------------------
-- The order of the leaves
--------------------------------------------------------------------------------

/-- The function whose call is complete, or would be if its brackets closed at once. -/
def called (c : Converter) : List Token :=
  match c.last, c.stack with
  | some (.function f), _ => [.function f]
  | some .openBracket, .bracket _ :: .function f :: _ => [.function f]
  | _, _ => []

/-- The leaves that were given are in the output, in order, except for the function whose call may
end with the next token.
-/
def InOrder (given : List Token) (c : Converter) : Prop :=
  (c.output.reverse ++ c.called).filter Token.isLeaf = given.filter Token.isLeaf

/-- Releasing operators puts no leaf behind the others. -/
theorem filter_releaseBefore (op : Operator) (stack : List Waiting) (output : List Token)
    : (releaseBefore op stack output).2.reverse.filter Token.isLeaf
      = output.reverse.filter Token.isLeaf := by
  induction stack generalizing output with
  | nil => rfl
  | cons top stack ih =>
      cases top with
      | operator waiting =>
          unfold releaseBefore
          split
          · rw [ih]
            simp [Token.isLeaf]
          · rfl
      | function f | bracket arguments => rfl

end Converter

namespace Levels

/-- Only operators are released to a bracket, and they are no leaves. -/
theorem filter_releaseToBracket {stack below : List Waiting} {w output complete : List Token}
    {arguments : Nat} (levels : Levels stack w)
    (released : Converter.releaseToBracket stack output = some (arguments, below, complete))
    : complete.reverse.filter Token.isLeaf = output.reverse.filter Token.isLeaf := by
  induction levels generalizing output with
  | outermost arranged => cases released
  | operator op levels ih =>
      rw [ih released]
      simp [Token.isLeaf]
  | group levels free arranged _ | call f levels arranged _ =>
      cases released
      rfl

/-- Releasing the stack at the end adds no leaf to the output. -/
theorem filter_releaseAll {stack : List Waiting} {w output complete : List Token}
    (levels : Levels stack w) (released : Converter.releaseAll stack output = some complete)
    : complete.reverse.filter Token.isLeaf = output.reverse.filter Token.isLeaf := by
  induction levels generalizing output with
  | outermost arranged =>
      cases released
      rfl
  | operator op levels ih =>
      rw [ih released]
      simp [Token.isLeaf]
  | group levels free arranged _ | call f levels arranged _ => cases released

/-- A function waits below its bracket or was given last. -/
theorem head?_ne_function {stack : List Waiting} {w : List Token} (levels : Levels stack w)
    (f : Function)
    : stack.head? ≠ some (.function f) := by
  cases levels <;> simp

end Levels

namespace Converter

variable {given : List Token} {c d : Converter}

/-- No function waits for its call to be completed by a closing bracket with a leaf. -/
def CallsNoLeaf (c : Converter) : Prop :=
  c.last = some .openBracket → ∀ f, c.stack.tail.head? = some (.function f)
    → Token.isLeaf (.function f) = false

/-- Behind neither a function nor the opening bracket of a call, no function is called. -/
theorem called_of_ne (free : ∀ f, c.last ≠ some (.function f))
    (group
      : c.last = some .openBracket → ∀ f, c.stack.tail.head? ≠ some (.function f))
    : c.called = [] := by
  unfold called
  split
  · rename_i f last
    exact absurd last (free f)
  · rename_i f _ last top
    exact absurd (by rw [top]; rfl) (group last f)
  · rfl

/-- Once the last function is settled the leaves are in the output, unless a function without
arguments waits for its bracket to close.
-/
theorem InOrder.settle {next : Option Token} (inOrder : c.InOrder given)
    (mirrors : Mirrors given c) (settled : c.settle next = .ok d)
    (other : next ≠ some .openBracket)
    : (d.output.reverse.filter Token.isLeaf = given.filter Token.isLeaf ∧ d.CallsNoLeaf)
      ∨ d = c ∧ c.last = some .openBracket
        ∧ ∃ separators f stack,
            c.stack = .bracket (separators + 1) :: .function (.nullary f) :: stack := by
  unfold InOrder at inOrder
  unfold Converter.settle at settled
  split at settled
  · rename_i f last
    rw [if_neg other] at settled
    unfold callBare at settled
    split at settled
    · cases settled
    · cases settled
      left
      exact ⟨by simpa [called, last] using inOrder, by simp [CallsNoLeaf, last]⟩
  · rename_i free
    cases settled
    have levels := mirrors.levels free
    by_cases opened : c.last = some .openBracket
    · obtain ⟨arguments, stack, top⟩ := mirrors.opened opened
      rw [top] at levels
      cases levels with
      | @group stack outer inner separators below _ _ =>
          left
          have alone (f : Function) : c.stack.tail.head? ≠ some (.function f) := by
            simpa [top] using below.head?_ne_function f
          have none : c.called = [] := called_of_ne free fun _ => alone
          exact ⟨by simpa [none] using inOrder, fun _ f waits => absurd waits (alone f)⟩
      | @call stack outer inner separators f below _ =>
          cases f with
          | nullary f => exact .inr ⟨rfl, opened, separators, f, stack, top⟩
          | unary _ | power =>
              left
              refine ⟨by simpa [called, opened, top, Token.isLeaf] using inOrder, ?_⟩
              rintro _ g waits
              simp only [top, List.tail_cons, List.head?_cons, Option.some.injEq,
                Waiting.function.injEq] at waits
              subst waits
              rfl
    · left
      have none : c.called = [] := called_of_ne free fun same => absurd same opened
      exact ⟨by simpa [none] using inOrder, fun same => absurd same opened⟩

/-- Completing a group adds no leaf to the output, if the function that is called on it is none. -/
theorem filter_completeGroup {arguments : Nat} {stack : List Waiting} {output : List Token}
    (calls
      : ∀ f, stack.head? = some (.function f) → f.arity = arguments
          → Token.isLeaf (.function f) = false)
    (completed : c.completeGroup arguments stack output = .ok d)
    : d.output.reverse.filter Token.isLeaf = output.reverse.filter Token.isLeaf := by
  unfold completeGroup at completed
  split at completed
  case h_1 f stack =>
      split at completed
      case isTrue arity =>
          cases completed
          simp [calls f rfl arity]
      case isFalse => cases completed
  case h_2 =>
      split at completed
      · cases completed
      · cases completed
        rfl

/-- A bracket that closes puts no leaf into the output, unless it closes the call of a function
without arguments.
-/
theorem filter_closeBracket (levels : Levels c.stack given)
    (calls : c.CallsNoLeaf)
    (closed : c.closeBracket = .ok d)
    : d.output.reverse.filter Token.isLeaf = c.output.reverse.filter Token.isLeaf := by
  unfold closeBracket closingStack at closed
  split at closed
  · cases closed
  · rename_i arguments stack output released
    split at released
    · rename_i last top
      cases released
      exact filter_completeGroup (fun f head _ => calls last f (by rw [top]; exact head)) closed
    · have below := levels.releaseToBracket released
      rw [← levels.filter_releaseToBracket released]
      refine filter_completeGroup (fun f head arity => ?_) closed
      cases below <;> cases f <;> simp_all [Function.arity, Token.isLeaf]

/-- A token that is no function is in the output if it is a leaf. -/
theorem filter_take {t : Token} (levels : Levels c.stack given) (other : ∀ f, t ≠ .function f)
    (calls : c.CallsNoLeaf)
    (taken : c.take t = .ok d)
    : d.output.reverse.filter Token.isLeaf
      = c.output.reverse.filter Token.isLeaf ++ [t].filter Token.isLeaf := by
  cases t with
  | number x | constant x =>
      cases taken
      simp
  | operator op =>
      cases taken
      simpa [Token.isLeaf] using filter_releaseBefore op c.stack c.output
  | function f => exact absurd rfl (other f)
  | openBracket =>
      cases taken
      simp [Token.isLeaf]
  | closeBracket => simpa [Token.isLeaf] using filter_closeBracket levels calls taken
  | separator =>
      change c.separate = .ok d at taken
      unfold separate at taken
      split at taken
      · cases taken
      · rename_i arguments stack output released
        cases taken
        simpa [Token.isLeaf] using levels.filter_releaseToBracket released

/-- An opening bracket puts nothing into the output. A function without arguments in whose brackets
another one opens is blocked.
-/
theorem InOrder.push_openBracket (inOrder : c.InOrder given) (mirrors : Mirrors given c)
    (pushed : c.push .openBracket = .ok d)
    : d.InOrder (given ++ [.openBracket]) ∨ Blocked d.settledStack := by
  obtain ⟨settled, taken, settling, taking, rfl⟩ := push_eq_ok_iff.mp pushed
  by_cases call : ∃ f, c.last = some (.function f)
  · obtain ⟨f, last⟩ := call
    obtain ⟨_, stack, _, top, _⟩ := mirrors.pending f last
    simp only [Converter.settle, last, if_true] at settling
    cases settling
    cases taking
    left
    unfold InOrder at inOrder ⊢
    simpa [called, last, top, Token.isLeaf] using inOrder
  · have free (f : Function) : c.last ≠ some (.function f) := fun last => call ⟨f, last⟩
    rw [settle_of_last free] at settling
    cases settling
    cases taking
    rcases inOrder.settle mirrors (settle_of_last free none) (by simp) with
      ⟨leaves, _⟩ | ⟨_, _, separators, f, stack, top⟩
    · left
      have alone := (mirrors.levels free).head?_ne_function
      have none : called ⟨.bracket 1 :: c.stack, c.output, some .openBracket⟩ = [] :=
        called_of_ne (by simp) fun _ => alone
      simpa [InOrder, none, Token.isLeaf] using leaves
    · right
      simp only [settledStack, if_true, List.tail_cons, top]
      exact .call separators f stack

/-- The leaves stay in order, unless a function without arguments is called on some. -/
theorem InOrder.push {t : Token} (inOrder : c.InOrder given) (mirrors : Mirrors given c)
    (pushed : c.push t = .ok d)
    : d.InOrder (given ++ [t]) ∨ Blocked d.settledStack := by
  by_cases opens : t = .openBracket
  · subst opens
    exact inOrder.push_openBracket mirrors pushed
  obtain ⟨settled, taken, settling, taking, rfl⟩ := push_eq_ok_iff.mp pushed
  obtain ⟨levels, _, _⟩ := mirrors.settle settling (by simpa using opens)
  rcases inOrder.settle mirrors settling (by simpa using opens) with
    ⟨leaves, calls⟩ | ⟨rfl, opened, separators, f, stack, top⟩
  · left
    by_cases function : ∃ g, t = .function g
    · obtain ⟨g, rfl⟩ := function
      cases taking
      simp [InOrder, called, leaves]
    · have other (g : Function) : t ≠ .function g := fun same => function ⟨g, same⟩
      have none : called { taken with last := some t } = [] :=
        called_of_ne (by simpa using other) (by simp [opens])
      simp [InOrder, none, filter_take levels other calls taking, leaves]
  · by_cases closes : t = .closeBracket
    · left
      subst closes
      simp only [take, closeBracket, closingStack, opened, top, releaseToBracket, completeGroup,
        Function.arity, if_true] at taking
      cases taking
      simpa [InOrder, called, opened, top, Token.isLeaf] using inOrder
    · right
      have waits : Blocked settled.stack := top ▸ .call separators f stack
      simpa [settledStack, opens] using blocked_take waits closes taking

end Converter

/-- The leaves of the postfix order are those of the infix tokens, in the same order. Witness: the
converter either has them in order or is blocked, and what is blocked never ends.
-/
theorem filter_isLeaf_ofTokens {given output : List Token} {s : State}
    (converted : ofTokens given s = .ok output)
    : output.filter Token.isLeaf = given.filter Token.isLeaf := by
  obtain ⟨c, run, finished⟩ := bind_eq_ok_iff.mp converted
  have step (past : List Token) (t : Token) (c d : Converter)
      (holds : Mirrors past c ∧ (c.InOrder past ∨ Blocked c.settledStack))
      (pushed : c.pushIn s t = .ok d)
      : Mirrors (past ++ [t]) d ∧ (d.InOrder (past ++ [t]) ∨ Blocked d.settledStack) := by
    obtain ⟨mirrors, holds⟩ := holds
    unfold Converter.pushIn at pushed
    split at pushed
    · cases pushed
    · refine ⟨mirrors.push pushed, ?_⟩
      rcases holds with inOrder | blocked
      · exact inOrder.push mirrors pushed
      · exact .inr (Converter.blocked_push blocked pushed)
  have start : Mirrors [] {} := ⟨rfl, by simp, fun _ => .outermost .nil, by simp⟩
  have holds := foldlM_preserves step ⟨start, .inl rfl⟩ run
  obtain ⟨mirrors, holds⟩ := holds
  obtain ⟨d, settling, finished⟩ := bind_eq_ok_iff.mp finished
  split at finished
  case h_2 => cases finished
  case h_1 complete released =>
      cases finished
      rcases holds with inOrder | blocked
      · obtain ⟨levels, _, _⟩ := mirrors.settle settling (by simp)
        rw [levels.filter_releaseAll released]
        rcases inOrder.settle mirrors settling (by simp) with
          ⟨leaves, _⟩ | ⟨rfl, _, separators, f, stack, top⟩
        · exact leaves
        · rw [top] at released
          cases released
      · have waits := Converter.blocked_stack (Converter.blocked_settle blocked settling)
        rw [waits.releaseAll] at released
        cases released

--------------------------------------------------------------------------------
-- Failures of what was converted
--------------------------------------------------------------------------------

/-- The last answer is asked for only where there is one. -/
theorem ans_of_ofTokens {given output : List Token} {s : State}
    (converted : ofTokens given s = .ok output) (asked : .constant .ans ∈ given)
    : s.ans ≠ none := by
  intro missing
  obtain ⟨c, run, _⟩ := bind_eq_ok_iff.mp converted
  obtain ⟨b, next, pushed⟩ := exists_step_of_foldlM run asked
  simp [Converter.pushIn, missing] at pushed

/-- What makes a single token fail: the operation, missing operands, the last answer if it is
missing, and brackets and separators.
-/
theorem step_eq_error {m : Machine} {t : Token} {e : CalcError} (failed : m.step t = .error e)
    : e.IsArithmetic ∨ e = .mismatchedOperands ∨ (∃ given, e = .argumentCount .power given)
      ∨ (t = .constant .ans ∧ m.state.ans = none) ∨ t.isPostfix = false := by
  obtain ⟨values, s⟩ := m
  cases t with
  | number x => cases failed
  | openBracket | closeBracket | separator => exact .inr (.inr (.inr (.inr rfl)))
  | constant c =>
      cases c with
      | pi | e => cases failed
      | ans =>
          cases last : s.ans with
          | none => exact .inr (.inr (.inr (.inl ⟨rfl, rfl⟩)))
          | some x =>
              simp only [Machine.step, Constant.value?, last] at failed
              cases failed
  | operator op =>
      rcases values with - | ⟨b, - | ⟨a, values⟩⟩
      · cases failed
        exact .inr (.inl rfl)
      · cases failed
        exact .inr (.inl rfl)
      · rcases bind_eq_error_iff.mp failed with failed | ⟨x, _, failed⟩
        · exact .inl ((Operator.apply_isProper op a b).isArithmetic failed)
        · cases failed
  | function f =>
      cases f with
      | nullary f => cases failed
      | unary f =>
          cases values with
          | nil =>
              cases failed
              exact .inr (.inl rfl)
          | cons x values =>
              rcases bind_eq_error_iff.mp failed with failed | ⟨y, _, failed⟩
              · exact .inl ((UnaryFunction.apply_isProper f _ x).isArithmetic failed)
              · cases failed
      | power =>
          rcases values with - | ⟨b, - | ⟨a, values⟩⟩
          · cases failed
            exact .inr (.inr (.inl ⟨_, rfl⟩))
          · cases failed
            exact .inr (.inr (.inl ⟨_, rfl⟩))
          · rcases bind_eq_error_iff.mp failed with failed | ⟨x, _, failed⟩
            · exact .inl ((powerResult_isProper _ a b).isArithmetic failed)
            · cases failed

/-- A step leaves the last answer alone. -/
theorem ans_of_step {m next : Machine} {t : Token} (stepped : m.step t = .ok next)
    : next.state.ans = m.state.ans := by
  obtain ⟨_, _, _, _, _, _, state⟩ := step_eq_ok stepped
  rw [state]
  split <;> rfl

/-- Where all tokens have a place in postfix order and the last answer is not missing, neither a
bracket nor the last answer is the cause of a failure.
-/
theorem evaluate_error {tokens : List Token} {s : State} {e : CalcError}
    (placed : ∀ t ∈ tokens, t.isPostfix = true)
    (defined : .constant .ans ∈ tokens → s.ans ≠ none) (failed : evaluate tokens s = .error e)
    : e ≠ .ansUndefined ∧ e ≠ .mismatchedParenthesis := by
  rcases bind_eq_error_iff.mp failed with failed | ⟨m, _, failed⟩
  · have kept (m : Machine) (t : Token) (next : Machine) (same : m.state.ans = s.ans)
        (stepped : m.step t = .ok next)
        : next.state.ans = s.ans :=
      (ans_of_step stepped).trans same
    obtain ⟨t, member, m, same, failed⟩ := exists_step_of_foldlM_error kept rfl failed
    rcases step_eq_error failed with arithmetic | rfl | ⟨given, rfl⟩ | ⟨rfl, missing⟩ | other
    · cases arithmetic <;> simp
    · simp
    · simp
    · exact absurd (same.symm.trans missing) (defined member)
    · rw [placed t member] at other
      cases other
  · rcases bind_eq_error_iff.mp failed with failed | ⟨x, _, failed⟩
    · unfold Machine.answer at failed
      split at failed <;> cases failed <;> simp
    · cases failed

/-- Conversion loses, adds and reorders nothing that it must keep. Its output holds the infix
tokens without brackets and separators, each as often, and those that are values by themselves in
the same order. What converts has balanced brackets, and its evaluation in the same state finds
neither a bracket nor a missing last answer.
-/
theorem ofTokens_rearranges {given output : List Token} {s : State}
    (converted : ofTokens given s = .ok output)
    : (∀ t ∈ output, t ≠ .openBracket ∧ t ≠ .closeBracket ∧ t ≠ .separator)
      ∧ output.Perm (given.filter Token.isPostfix)
      ∧ output.filter Token.isLeaf = given.filter Token.isLeaf
      ∧ Infix.Balanced given
      ∧ evaluate output s ≠ .error .ansUndefined
      ∧ evaluate output s ≠ .error .mismatchedParenthesis := by
  have rearranged := ofTokens_perm converted
  have placed (t : Token) (member : t ∈ output) : t.isPostfix = true :=
    (List.mem_filter.mp (rearranged.mem_iff.mp member)).2
  have defined (asked : .constant .ans ∈ output) : s.ans ≠ none :=
    ans_of_ofTokens converted (mem_of_ofTokens converted asked)
  refine ⟨fun t member => ?_, rearranged, filter_isLeaf_ofTokens converted,
    (arranged_of_ofTokens converted).foldlM_depthBehind 0, fun failed => ?_, fun failed => ?_⟩
  · have place := placed t member
    refine ⟨?_, ?_, ?_⟩ <;> rintro rfl <;> cases place
  · exact (evaluate_error placed defined failed).1 rfl
  · exact (evaluate_error placed defined failed).2 rfl

/-- Witness: a function without arguments with and without brackets, on both sides of operators
that change places.
-/
theorem ofTokens_rearranges_calls
    : let given : List Token :=
        [.openBracket, .function (.nullary .toggle), .operator .sub, .constant .ans, .closeBracket,
          .operator .pow, .function (.nullary .current), .openBracket, .closeBracket]
      let output : List Token :=
        [.function (.nullary .toggle), .constant .ans, .operator .sub,
          .function (.nullary .current), .operator .pow]
      let s : State := { ans := some 1 }
      ofTokens given s = .ok output
        ∧ output.Perm (given.filter Token.isPostfix)
        ∧ output.filter Token.isLeaf = given.filter Token.isLeaf
        ∧ Infix.Balanced given
        ∧ evaluate output s ≠ .error .ansUndefined := by
  intro given output s
  have converted : ofTokens given s = .ok output := rfl
  obtain ⟨_, rearranged, leaves, balanced, answered, _⟩ := ofTokens_rearranges converted
  exact ⟨converted, rearranged, leaves, balanced, answered⟩

end Postfix

end Calculator
