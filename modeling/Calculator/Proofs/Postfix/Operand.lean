import Calculator.Infix.Juxtaposition
import Calculator.Proofs.Postfix.Nesting

/-! Operands in the converter. A value, a bare function or a group leaves the stack as it found
it, whatever is inside, so brackets around two operands and the power sign between them change
nothing: what may follow would release that power sign in any case.
-/

namespace Calculator.Postfix

open Infix

namespace Converter

/-- Tokens that act as an operand in the given state. Once a function that may end them is
settled, the stack is as it was before, and their output or error depends on the output before
them alone.
-/
def Operand (s : State) (tokens : List Token) : Prop :=
  ∃ last, last ≠ .openBracket
    ∧ ∀ output, ∃ result : Except CalcError (List Token), ∀ stack first,
        Ready ⟨stack, output, first⟩
        → (tokens.foldlM (pushIn s) ⟨stack, output, first⟩ >>= (·.settle none))
          = result.map (⟨stack, ·, some last⟩)

/-- Unless a bracket opens, the next token finds the last function settled. -/
theorem settle_of_ne_openBracket {next : Option Token} (other : next ≠ some .openBracket)
    (c : Converter)
    : c.settle next = c.settle none := by
  unfold settle
  split
  · rw [if_neg other, if_neg (by simp)]
  · rfl

/-- A token that neither opens a bracket nor asks for a last answer is taken once the last
function is settled.
-/
theorem pushIn_eq_settle (s : State) {t : Token} (opens : t ≠ .openBracket)
    (asks : t ≠ .constant .ans) (c : Converter)
    : c.pushIn s t = c.settle none >>= fun d => (d.take t).map ({ · with last := some t }) := by
  rw [pushIn, if_neg fun missing => asks missing.1, push,
    settle_of_ne_openBracket (by simpa using opens)]
  rfl

--------------------------------------------------------------------------------
-- Values, bare functions and groups
--------------------------------------------------------------------------------

/-- A value is an operand: it is put into the output at once, unless it is the last answer and there
is none.
-/
theorem operand_value (s : State) {t : Token} (value : t.isValue = true)
    : Operand s [t] := by
  have opens : t ≠ .openBracket := by
    rintro rfl
    cases value
  refine ⟨t, opens, fun output => ?_⟩
  by_cases missing : t = .constant .ans ∧ s.ans = none
  · refine ⟨.error .ansUndefined, fun stack first ready => ?_⟩
    simp [pushIn, missing, Except.map]
  · refine ⟨.ok (t :: output), fun stack first ready => ?_⟩
    simp only [List.foldlM_cons, List.foldlM_nil, pushIn, if_neg missing, ready.push_value value,
      ok_bind, pure_eq_ok]
    refine settle_of_last (fun f same => ?_) none
    cases same
    cases value

/-- A bare function is one operand if it takes no arguments, and fails otherwise. -/
theorem operand_bare (s : State) (f : Function)
    : Operand s [.function f] := by
  refine ⟨.function f, by simp, fun output => ?_⟩
  refine ⟨if f.arity ≠ 0 then .error (.missingArguments f) else .ok (.function f :: output), ?_⟩
  intro stack first ready
  have pushed : pushIn s ⟨stack, output, first⟩ (.function f)
      = .ok ⟨.function f :: stack, output, some (.function f)⟩ := by
    rw [pushIn, if_neg (by simp), ready.push_function]
  simp only [List.foldlM_cons, List.foldlM_nil, pushed, ok_bind, pure_eq_ok]
  by_cases arity : f.arity ≠ 0 <;> simp [settle, callBare, arity, Except.map]

/-- The bracket that closes a group meets the bracket that the stack ends with above everything
below the group, and it completes the group there.
-/
theorem take_closeBracket_above {c : Converter} (encloses : Encloses 0 c.stack)
    (callee : Option Function)
    : ∃ result : Except CalcError (List Token), ∀ below,
        (∀ f, below.head? ≠ some (.function f))
        → ((c.above ((callee.map .function).toList ++ below)).take .closeBracket).map
            ({ · with last := some .closeBracket })
          = result.map (⟨below, ·, some .closeBracket⟩) := by
  obtain ⟨closing, closing_above⟩ := closingStack_above encloses
  obtain ⟨arguments, rest, complete, inner, _, released⟩ := closing.releaseToBracket c.output
  cases inner
  have output (below : List Waiting) : (c.above below).output = c.output := rfl
  cases callee with
  | none =>
      refine ⟨if 1 < arguments then .error .misplacedSeparator else .ok complete, ?_⟩
      intro below free
      simp only [take, closeBracket, closing_above, output, released, List.nil_append,
        completeGroup_of_free, Option.map_none, Option.toList_none, free, ne_eq, not_false_eq_true,
        implies_true]
      split <;> rfl
  | some f =>
      refine
        ⟨if f.arity = arguments then .ok (.function f :: complete)
          else .error (.argumentCount f arguments), ?_⟩
      intro below free
      simp only [take, closeBracket, closing_above, output, released, List.nil_append,
        completeGroup, Option.map_some, Option.toList_some, List.singleton_append]
      split <;> rfl

/-- What opens a group leaves its bracket on top of the stack. -/
theorem foldlM_openGroup (s : State) {c : Converter} (ready : c.Ready) (callee : Option Function)
    : ((callee.map Token.function).toList ++ [Token.openBracket]).foldlM (pushIn s) c
      = .ok ⟨.bracket 1 :: ((callee.map Waiting.function).toList ++ c.stack), c.output,
          some .openBracket⟩ := by
  cases callee with
  | none =>
      simp [pushIn, ready.push_openBracket]
  | some f =>
      simp [pushIn, ready.push_function, push_openBracket_of_call]

/-- The converter behind a bracket that opens on an empty stack. -/
def behindBracket (output : List Token) : Converter :=
  ⟨[.bracket 1], output, some .openBracket⟩

/-- What is inside a group stays inside until the bracket of the group closes. -/
theorem confined_group (s : State) {inner : Layout} (closed : inner.Closed) (output : List Token)
    : Confined (fun c => inner.tokens.foldlM (pushIn s) c >>= (·.settle none)) 0
      (behindBracket output) :=
  (confined_run s (Encloses.bottom 1) (depthBehind_of_closed closed 0)).bind
    fun _ encloses => confined_settle encloses none

/-- The tokens of a group convert as they do on an empty stack, and the closing bracket meets what
is below.
-/
theorem foldlM_group (s : State) (callee : Option Function) {inner : Layout}
    (closed : inner.Closed) {stack : List Waiting} {output : List Token} {first : Option Token}
    (ready : Ready ⟨stack, output, first⟩)
    : (Layout.group callee inner .nil).tokens.foldlM (pushIn s) ⟨stack, output, first⟩
      = (inner.tokens.foldlM (pushIn s) (behindBracket output) >>= (·.settle none)).map
          (·.above ((callee.map .function).toList ++ stack))
        >>= fun d => (d.take .closeBracket).map ({ · with last := some .closeBracket }) := by
  have parts
      : (Layout.group callee inner .nil).tokens
        = ((callee.map Token.function).toList ++ [.openBracket]) ++ inner.tokens
          ++ [.closeBracket] := by
    simp
  have closes := pushIn_eq_settle s (by simp : Token.closeBracket ≠ .openBracket) (by simp)
  rw [← (confined_group s closed output).above, parts, List.foldlM_append, List.foldlM_append,
    foldlM_openGroup s ready]
  simp only [ok_bind, List.foldlM_cons, List.foldlM_nil, bind_pure, bind_assoc, closes]
  rfl

/-- A group is one operand, whatever is between its brackets. -/
theorem operand_group (s : State) (callee : Option Function) {inner : Layout}
    (closed : inner.Closed)
    : Operand s (Layout.group callee inner .nil).tokens := by
  refine ⟨.closeBracket, by simp, fun output => ?_⟩
  have inside := confined_group s closed output
  cases finished : inner.tokens.foldlM (pushIn s) (behindBracket output) >>= (·.settle none) with
  | error e =>
      refine ⟨.error e, fun stack first ready => ?_⟩
      rw [foldlM_group s callee closed ready, finished]
      rfl
  | ok d =>
      obtain ⟨result, completes⟩ := take_closeBracket_above (inside.encloses d finished) callee
      refine ⟨result, fun stack first ready => ?_⟩
      have completed := completes stack ready.stack
      rw [foldlM_group s callee closed ready, finished]
      change (Except.map _ _ >>= _) = _
      rw [completed]
      cases result <;> rfl

--------------------------------------------------------------------------------
-- Brackets around a power
--------------------------------------------------------------------------------

/-- What continues a conversion releases a power sign that waits on top first, as a bracket would
have done.
-/
def ReleasesPower {α : Type} (continuation : Converter → Except CalcError α) : Prop :=
  ∀ stack output last, last ≠ .openBracket
    → continuation ⟨.operator .pow :: stack, output, some last⟩
      = continuation ⟨stack, .operator .pow :: output, some .closeBracket⟩

theorem ReleasesPower.bind {α β : Type} {first : Converter → Except CalcError α}
    (releases : ReleasesPower first) (later : α → Except CalcError β)
    : ReleasesPower fun c => first c >>= later :=
  fun stack output last opened =>
    congrArg (· >>= later) (releases stack output last opened)

/-- Whatever may stand behind an operand releases its power sign, except for another one. -/
theorem releasesPower_take {t : Token} (behind : lacksSign .closeBracket t = false)
    (other : t ≠ .operator .pow)
    : ReleasesPower fun c => (c.take t).map ({ · with last := some t }) := by
  intro stack output last opened
  cases t with
  | number x | constant x | function f | openBracket => cases behind
  | operator op =>
      have binds : Operator.bindsBefore .pow op = true := by
        cases op <;> first | rfl | contradiction
      simp [take, releaseBefore, binds, Except.map]
  | separator =>
      simp only [take, separate, releaseToBracket]
      cases releaseToBracket stack (.operator .pow :: output) <;> rfl
  | closeBracket =>
      have closing : closingStack ⟨.operator .pow :: stack, output, some last⟩
          = .operator .pow :: stack :=
        closingStack_of_last (by simpa using opened)
      have closed : closingStack ⟨stack, .operator .pow :: output, some .closeBracket⟩ = stack :=
        closingStack_of_last (by simp)
      simp only [take, closeBracket, closing, closed, releaseToBracket]
      cases releaseToBracket stack (.operator .pow :: output) with
      | none => rfl
      | some found =>
          obtain ⟨arguments, below, complete⟩ := found
          simp only [completeGroup]
          split <;> split <;> rfl

/-- The conversion of what may stand behind an operand settles the last function and releases a
power sign, unless another power follows.
-/
theorem releasesPower_rest (s : State) {after : List Token}
    (behind : ∀ t ∈ after.head?, lacksSign .closeBracket t = false)
    (other : after.head? ≠ some (.operator .pow))
    : ∃ continuation, ReleasesPower continuation
      ∧ ∀ c, (after.foldlM (pushIn s) c >>= finish) = c.settle none >>= continuation := by
  cases after with
  | nil => exact ⟨_, fun _ _ _ _ => rfl, fun c => rfl⟩
  | cons t rest =>
      have fits := behind t rfl
      have releases := releasesPower_take fits (by simpa using other)
      have opens : t ≠ .openBracket := by
        rintro rfl
        cases fits
      have asks : t ≠ .constant .ans := by
        rintro rfl
        cases fits
      refine ⟨_, releases.bind fun d => rest.foldlM (pushIn s) d >>= finish, fun c => ?_⟩
      rw [List.foldlM_cons, pushIn_eq_settle s opens asks]
      simp only [bind_assoc]

/-- No operator is released by a power sign. -/
theorem releaseBefore_power (stack : List Waiting) (output : List Token)
    : releaseBefore .pow stack output = (stack, output) :=
  @releaseBefore_operators .pow [] stack (by simp) (Admits.power stack) output

/-- The bracket around a power releases its sign. -/
theorem take_closeBracket_power {stack : List Waiting} {output : List Token} {last : Token}
    (free : ∀ f, stack.head? ≠ some (.function f)) (opened : last ≠ .openBracket)
    : take ⟨.operator .pow :: .bracket 1 :: stack, output, some last⟩ .closeBracket
      = .ok ⟨stack, .operator .pow :: output, some last⟩ := by
  have closing : closingStack ⟨.operator .pow :: .bracket 1 :: stack, output, some last⟩
      = .operator .pow :: .bracket 1 :: stack :=
    closingStack_of_last (by simpa using opened)
  simp [take, closeBracket, closing, releaseToBracket, completeGroup_of_group free]

section

variable {s : State} {base exponent : List Token}

/-- A power leaves its sign on the stack. -/
theorem Operand.power (base_h : Operand s base) (exponent_h : Operand s exponent)
    (output : List Token)
    : ∃ last, last ≠ .openBracket
      ∧ ∃ result : Except CalcError (List Token), ∀ stack first,
          Ready ⟨stack, output, first⟩
          → ((base ++ .operator .pow :: exponent).foldlM (pushIn s) ⟨stack, output, first⟩
              >>= (·.settle none))
            = result.map (⟨.operator .pow :: stack, ·, some last⟩) := by
  obtain ⟨base_last, _, base_h⟩ := base_h
  obtain ⟨last, opened, exponent_h⟩ := exponent_h
  obtain ⟨base_result, base_run⟩ := base_h output
  have run (stack : List Waiting) (first : Option Token) (ready : Ready ⟨stack, output, first⟩)
      : ((base ++ .operator .pow :: exponent).foldlM (pushIn s) ⟨stack, output, first⟩
          >>= (·.settle none))
        = base_result >>= fun complete =>
            exponent.foldlM (pushIn s) ⟨.operator .pow :: stack, complete, some (.operator .pow)⟩
              >>= (·.settle none) := by
    have pushes := pushIn_eq_settle s (by simp : Token.operator .pow ≠ .openBracket) (by simp)
    simp only [List.foldlM_append, List.foldlM_cons, bind_assoc, pushes]
    rw [← bind_assoc, base_run stack first ready]
    cases base_result with
    | error e => rfl
    | ok complete => simp [take, releaseBefore_power, Except.map]
  refine ⟨last, opened, ?_⟩
  cases base_result with
  | error e => exact ⟨.error e, run⟩
  | ok complete =>
      obtain ⟨result, exponent_run⟩ := exponent_h complete
      refine ⟨result, fun stack first ready => ?_⟩
      rw [run stack first ready]
      exact exponent_run _ _ (ready_operator .pow stack complete)

/-- Brackets around a power change nothing where no function waits for them and no other power
follows. Witness: the closing bracket releases the power sign, and so does what follows.
-/
theorem Operand.foldlM_powerGrouped (base_h : Operand s base) (exponent_h : Operand s exponent)
    {c : Converter} (ready : c.Ready) {after : List Token}
    (behind : ∀ t ∈ after.head?, lacksSign .closeBracket t = false)
    (other : after.head? ≠ some (.operator .pow))
    : ((.openBracket :: (base ++ .operator .pow :: exponent) ++ .closeBracket :: after).foldlM
          (pushIn s) c >>= finish)
      = ((base ++ .operator .pow :: exponent) ++ after).foldlM (pushIn s) c >>= finish := by
  obtain ⟨stack, output, first⟩ := c
  obtain ⟨last, opened, result, run⟩ := base_h.power exponent_h output
  obtain ⟨continuation, releases, continues⟩ := releasesPower_rest s behind other
  have bare := run stack first ready
  have grouped := run (.bracket 1 :: stack) _ (ready_openBracket 1 stack output)
  have pushed : pushIn s ⟨stack, output, first⟩ .openBracket
      = .ok ⟨.bracket 1 :: stack, output, some .openBracket⟩ := by
    rw [pushIn, if_neg (by simp), ready.push_openBracket]
  have closes := pushIn_eq_settle s (by simp : Token.closeBracket ≠ .openBracket) (by simp)
  have left
      : ((.openBracket :: (base ++ .operator .pow :: exponent) ++ .closeBracket :: after).foldlM
          (pushIn s) ⟨stack, output, first⟩ >>= finish)
        = result >>= fun complete =>
            continuation ⟨stack, .operator .pow :: complete, some .closeBracket⟩ := by
    rw [List.cons_append, List.foldlM_cons, pushed, ok_bind, List.foldlM_append]
    simp only [List.foldlM_cons, closes, bind_assoc, continues]
    rw [← bind_assoc, grouped]
    cases result with
    | error e => rfl
    | ok complete =>
        simp [take_closeBracket_power ready.stack opened, Except.map, settle]
  have right
      : (((base ++ .operator .pow :: exponent) ++ after).foldlM (pushIn s) ⟨stack, output, first⟩
          >>= finish)
        = result >>= fun complete =>
            continuation ⟨.operator .pow :: stack, complete, some last⟩ := by
    rw [List.foldlM_append]
    simp only [bind_assoc, continues]
    rw [← bind_assoc, bare]
    cases result <;> rfl
  rw [left, right]
  congr 1
  funext complete
  exact (releases stack complete last opened).symm

end

end Converter

end Calculator.Postfix
