import Calculator.Proofs.Infix.Matching
import Calculator.Proofs.Postfix.Conversion
import Calculator.Proofs.Postfix.Permutation

/-! What the converter does inside a bracket. Until that bracket closes, nothing below it on the
stack is touched or looked at, so the conversion runs as if nothing were there.
-/

namespace Calculator.Postfix

open Infix

/-- How many brackets are open behind a token, inside a bracket that the token may not close. -/
def depthBehind : Nat → Token → Option Nat
  | depth, .openBracket => some (depth + 1)
  | 0, .closeBracket => none
  | depth + 1, .closeBracket => some depth
  | depth, _ => some depth

/-- Matched brackets are closed again. -/
theorem depthBehind_of_closed {l : Layout} (closed : l.Closed) (depth : Nat)
    : l.tokens.foldlM depthBehind depth = some depth := by
  induction l generalizing depth with
  | nil => rfl
  | token t rest ih =>
      obtain ⟨opens, closes, closed⟩ := closed
      have same : depthBehind depth t = some depth := by
        cases t <;> first | rfl | contradiction
      rw [Layout.tokens_token, List.foldlM_cons, same]
      exact ih closed depth
  | group callee inner rest inner_ih rest_ih =>
      have bracketed
          : (Token.openBracket :: inner.tokens ++ .closeBracket :: rest.tokens).foldlM depthBehind
            depth = some depth := by
        simp [depthBehind, inner_ih closed.1, rest_ih closed.2]
      cases callee with
      | none => simpa using bracketed
      | some f => simpa [depthBehind] using bracketed

/-- The stack ends with a bracket, and `depth` others are open above it. -/
inductive Encloses : Nat → List Waiting → Prop where
  | bottom (arguments : Nat) : Encloses 0 [.bracket arguments]
  | operator {depth : Nat} {stack : List Waiting} (op : Operator)
    (encloses : Encloses depth stack)
    : Encloses depth (.operator op :: stack)
  | function {depth : Nat} {stack : List Waiting} (f : Function)
    (encloses : Encloses depth stack)
    : Encloses depth (.function f :: stack)
  | bracket {depth : Nat} {stack : List Waiting} (arguments : Nat)
    (encloses : Encloses depth stack)
    : Encloses (depth + 1) (.bracket arguments :: stack)

namespace Encloses

variable {depth : Nat} {stack : List Waiting}

theorem ne_nil (encloses : Encloses depth stack)
    : stack ≠ [] := by
  cases encloses <;> simp

/-- The number of arguments of an open bracket does not count. -/
theorem recount {arguments : Nat} (encloses : Encloses depth (.bracket arguments :: stack))
    (count : Nat)
    : Encloses depth (.bracket count :: stack) := by
  cases encloses with
  | bottom _ => exact .bottom count
  | bracket _ encloses => exact .bracket count encloses

theorem tail_of_function {f : Function} (encloses : Encloses depth (.function f :: stack))
    : Encloses depth stack := by
  cases encloses with
  | function _ encloses => exact encloses

/-- Releasing operators stops at the bracket. -/
theorem releaseBefore (encloses : Encloses depth stack) (op : Operator) (output : List Token)
    : Encloses depth (Converter.releaseBefore op stack output).1
      ∧ ∀ below, Converter.releaseBefore op (stack ++ below) output
        = ((Converter.releaseBefore op stack output).1 ++ below,
          (Converter.releaseBefore op stack output).2) := by
  induction encloses generalizing output with
  | bottom arguments => exact ⟨.bottom arguments, fun _ => rfl⟩
  | @operator depth stack waiting encloses ih =>
      simp only [List.cons_append, Converter.releaseBefore]
      split
      · exact ih _
      · exact ⟨.operator waiting encloses, fun _ => rfl⟩
  | function f encloses _ => exact ⟨.function f encloses, fun _ => rfl⟩
  | bracket arguments encloses _ => exact ⟨.bracket arguments encloses, fun _ => rfl⟩

/-- There is a bracket to release to, whatever is below. -/
theorem releaseToBracket (encloses : Encloses depth stack) (output : List Token)
    : ∃ arguments rest complete, Encloses depth (.bracket arguments :: rest)
        ∧ Converter.releaseToBracket stack output = some (arguments, rest, complete)
        ∧ ∀ below, Converter.releaseToBracket (stack ++ below) output
          = some (arguments, rest ++ below, complete) := by
  induction encloses generalizing output with
  | bottom arguments => exact ⟨arguments, [], output, .bottom arguments, rfl, fun _ => rfl⟩
  | operator op encloses ih => exact ih _
  | function f encloses ih => exact ih _
  | @bracket depth stack arguments encloses _ =>
      exact ⟨arguments, stack, output, .bracket arguments encloses, rfl, fun _ => rfl⟩

end Encloses

namespace Converter

/-- The converter with more on its stack, below everything else. -/
def above (c : Converter) (below : List Waiting) : Converter :=
  { c with stack := c.stack ++ below }

/-- A step that stays inside the bracket with which the stack ends: it does the same above
anything else, and leaves `depth` other brackets open.
-/
structure Confined (step : Converter → Except CalcError Converter) (depth : Nat)
    (c : Converter) : Prop where
  above : ∀ below, step (c.above below) = (step c).map (·.above below)
  encloses : ∀ d, step c = .ok d → Encloses depth d.stack

variable {c : Converter} {depth behind : Nat}

/-- Steps that stay inside can follow each other. -/
theorem Confined.bind {first second : Converter → Except CalcError Converter}
    (first_h : Confined first depth c)
    (second_h : ∀ d, Encloses depth d.stack → Confined second behind d)
    : Confined (fun c => first c >>= second) behind c where
  above := by
    intro below
    rw [first_h.above below]
    cases run : first c with
    | error e => rfl
    | ok d => exact (second_h d (first_h.encloses d run)).above below
  encloses := by
    intro d run
    obtain ⟨between, first_run, second_run⟩ := bind_eq_ok_iff.mp run
    exact (second_h between (first_h.encloses between first_run)).encloses d second_run

/-- Calling a function without arguments stays inside the bracket. Witness: only the top of the
stack is looked at, and there is one.
-/
theorem confined_callBare (encloses : Encloses depth c.stack) (f : Function)
    : Confined (·.callBare f) depth c := by
  obtain ⟨stack, output, last⟩ := c
  obtain ⟨top, rest, rfl⟩ := List.exists_cons_of_ne_nil encloses.ne_nil
  by_cases arity : f.arity ≠ 0
  · simp only [callBare, if_pos arity]
    exact ⟨fun _ => rfl, by rintro d ⟨⟩⟩
  · simp only [callBare, if_neg arity]
    by_cases waits : top = .function f
    · subst waits
      refine ⟨fun below => ?_, ?_⟩
      · simp [above, Except.map]
      · rintro d ⟨⟩
        simpa using encloses.tail_of_function
    · refine ⟨fun below => ?_, ?_⟩
      · simp [above, Except.map, waits]
      · rintro d ⟨⟩
        simpa [waits] using encloses

/-- So does settling a function, which is either called or left where it is. -/
theorem confined_settle (encloses : Encloses depth c.stack) (next : Option Token)
    : Confined (·.settle next) depth c := by
  by_cases bare : ∃ f, c.last = some (.function f) ∧ next ≠ some .openBracket
  · obtain ⟨f, last, other⟩ := bare
    have settles (d : Converter) (same : d.last = c.last) : d.settle next = d.callBare f := by
      simp [settle, same, last, other]
    have completes := confined_callBare encloses f
    refine ⟨fun below => ?_, ?_⟩
    · rw [settles (c.above below) rfl, settles c rfl]
      exact completes.above below
    · intro d run
      rw [settles c rfl] at run
      exact completes.encloses d run
  · have settles (d : Converter) (same : d.last = c.last) : d.settle next = .ok d := by
      unfold settle
      grind
    refine ⟨fun below => ?_, ?_⟩
    · rw [settles (c.above below) rfl, settles c rfl]
      rfl
    · intro d run
      rw [settles c rfl] at run
      cases run
      exact encloses

/-- A bracket that is inside completes its group on the stack around it. -/
theorem confined_completeGroup {stack : List Waiting} (encloses : Encloses depth stack)
    (arguments : Nat) (output : List Token)
    : (∀ below, (c.above below).completeGroup arguments (stack ++ below) output
        = (c.completeGroup arguments stack output).map (·.above below))
      ∧ ∀ d, c.completeGroup arguments stack output = .ok d → Encloses depth d.stack := by
  obtain ⟨top, rest, rfl⟩ := List.exists_cons_of_ne_nil encloses.ne_nil
  by_cases call : ∃ f, top = .function f
  · obtain ⟨f, rfl⟩ := call
    simp only [List.cons_append, completeGroup]
    split
    · exact ⟨fun _ => rfl, by rintro d ⟨⟩; exact encloses.tail_of_function⟩
    · exact ⟨fun _ => rfl, by rintro d ⟨⟩⟩
  · have free (behind : List Waiting) : ∀ f, (top :: behind).head? ≠ some (.function f) := by
      intro f same
      exact call ⟨f, by simpa using same⟩
    simp only [List.cons_append, completeGroup_of_free (free _)]
    split
    · exact ⟨fun _ => rfl, by rintro d ⟨⟩⟩
    · exact ⟨fun _ => rfl, by rintro d ⟨⟩; exact encloses⟩

/-- The stack on which a closing bracket is met is the same above anything else. -/
theorem closingStack_above (encloses : Encloses depth c.stack)
    : Encloses depth c.closingStack
      ∧ ∀ below, (c.above below).closingStack = c.closingStack ++ below := by
  obtain ⟨stack, output, last⟩ := c
  obtain ⟨top, rest, rfl⟩ := List.exists_cons_of_ne_nil encloses.ne_nil
  by_cases empty : last = some .openBracket ∧ ∃ arguments, top = .bracket arguments
  · obtain ⟨rfl, arguments, rfl⟩ := empty
    exact ⟨encloses.recount 0, fun _ => rfl⟩
  · have same (behind : List Waiting)
        : closingStack ⟨top :: behind, output, last⟩ = top :: behind := by
      unfold closingStack
      grind
    rw [same]
    exact ⟨encloses, fun below => same (rest ++ below)⟩

/-- Taking a token stays inside the bracket, unless the token closes it. -/
theorem confined_take (encloses : Encloses depth c.stack) {t : Token}
    (inside : depthBehind depth t = some behind)
    : Confined (·.take t) behind c := by
  cases t with
  | number x | constant x =>
      cases inside
      exact ⟨fun _ => rfl, by rintro d ⟨⟩; exact encloses⟩
  | function f =>
      cases inside
      exact ⟨fun _ => rfl, by rintro d ⟨⟩; exact encloses.function f⟩
  | openBracket =>
      cases inside
      exact ⟨fun _ => rfl, by rintro d ⟨⟩; exact encloses.bracket 1⟩
  | operator op =>
      cases inside
      obtain ⟨inside, local_h⟩ := encloses.releaseBefore op c.output
      refine ⟨fun below => ?_, ?_⟩
      · simp only [take, above, local_h below]
        rfl
      · rintro d ⟨⟩
        exact inside.operator op
  | separator =>
      cases inside
      obtain ⟨arguments, rest, complete, inside, released, below_released⟩ :=
        encloses.releaseToBracket c.output
      refine ⟨fun below => ?_, ?_⟩
      · simp only [take, separate, above, released, below_released below]
        rfl
      · intro d taken
        simp only [take, separate, released] at taken
        cases taken
        exact inside.recount _
  | closeBracket =>
      obtain ⟨closing, closing_above⟩ := closingStack_above encloses
      obtain ⟨arguments, rest, complete, inner, released, below_released⟩ :=
        closing.releaseToBracket c.output
      cases inner with
      | bottom _ => cases inside
      | bracket _ outer =>
          cases inside
          obtain ⟨completed_above, completed⟩ :=
            confined_completeGroup (c := c) outer arguments complete
          refine ⟨fun below => ?_, ?_⟩
          · have output : (c.above below).output = c.output := rfl
            simp only [take, closeBracket, closing_above, output, released, below_released below]
            exact completed_above below
          · intro d taken
            simp only [take, closeBracket, released] at taken
            exact completed d taken

/-- The converter does the same to the tokens inside a bracket, whatever is below it. -/
theorem confined_pushIn (s : State) (encloses : Encloses depth c.stack) {t : Token}
    (inside : depthBehind depth t = some behind)
    : Confined (·.pushIn s t) behind c := by
  by_cases missing : t = .constant .ans ∧ s.ans = none
  · simp only [pushIn, if_pos missing]
    exact ⟨fun _ => rfl, by rintro d ⟨⟩⟩
  · simp only [pushIn, if_neg missing]
    refine (confined_settle encloses (some t)).bind fun d settled => ?_
    refine (confined_take settled inside).bind fun e taken => ?_
    exact ⟨fun _ => rfl, by rintro _ ⟨⟩; exact taken⟩

/-- A run over tokens that do not close the bracket stays inside it. Witness: induction on the
tokens.
-/
theorem confined_run (s : State) {tokens : List Token} (encloses : Encloses depth c.stack)
    (inside : tokens.foldlM depthBehind depth = some behind)
    : Confined (tokens.foldlM (pushIn s)) behind c := by
  induction tokens generalizing c depth with
  | nil =>
      cases inside
      exact ⟨fun _ => rfl, by rintro d ⟨⟩; exact encloses⟩
  | cons t rest ih =>
      obtain ⟨between, first, later⟩ := Option.bind_eq_some_iff.mp (by simpa using inside)
      have run := (confined_pushIn s encloses first).bind fun d pushed => ih pushed later
      simpa only [List.foldlM_cons] using run

end Converter

end Calculator.Postfix
