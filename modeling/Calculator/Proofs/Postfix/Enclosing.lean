import Calculator.Proofs.Infix.Balance
import Calculator.Proofs.Postfix.Operand

/-! Brackets around all tokens. The outermost bracket stays at the bottom of the stack, where
nothing meets it before it closes, and then it releases what the end of the tokens would have
released.
-/

namespace Calculator.Postfix

open Infix

--------------------------------------------------------------------------------
-- A bracket below everything else
--------------------------------------------------------------------------------

/-- The outermost bracket is not released by an operator. -/
theorem releaseBefore_append_bracket (op : Operator) (stack : List Waiting) (output : List Token)
    (arguments : Nat)
    : Converter.releaseBefore op (stack ++ [.bracket arguments]) output
      = ((Converter.releaseBefore op stack output).1 ++ [.bracket arguments],
        (Converter.releaseBefore op stack output).2) := by
  induction stack generalizing output with
  | nil => rfl
  | cons top stack ih =>
      cases top with
      | operator waiting =>
          simp only [List.cons_append, Converter.releaseBefore]
          split
          · exact ih _
          · rfl
      | function f | bracket n => rfl

/-- What is below a bracket does not matter for the release down to it. -/
theorem releaseToBracket_append {stack rest : List Waiting} {output complete : List Token}
    {arguments : Nat}
    (released : Converter.releaseToBracket stack output = some (arguments, rest, complete))
    (below : List Waiting)
    : Converter.releaseToBracket (stack ++ below) output
      = some (arguments, rest ++ below, complete) := by
  induction stack generalizing output with
  | nil => cases released
  | cons top stack ih =>
      cases top with
      | operator op => exact ih released
      | function f => exact ih released
      | bracket n =>
          cases released
          rfl

namespace Encloses

variable {depth : Nat} {stack : List Waiting}

theorem eq_nil_of_bracket {arguments : Nat} (encloses : Encloses 0 (.bracket arguments :: stack))
    : stack = [] := by
  cases encloses
  rfl

/-- Another bracket is open above the one that the stack ends with. -/
theorem exists_inner {arguments : Nat}
    (encloses : Encloses (depth + 1) (stack ++ [.bracket arguments])) (output : List Token)
    : ∃ inner rest complete,
        Converter.releaseToBracket stack output = some (inner, rest, complete) := by
  induction stack generalizing output with
  | nil =>
      cases encloses with
      | bracket _ encloses => cases encloses
  | cons top stack ih =>
      cases top with
      | operator op =>
          cases encloses with
          | operator _ encloses => exact ih encloses _
      | function f =>
          cases encloses with
          | function _ encloses => exact ih encloses _
      | bracket n => exact ⟨n, stack, output, rfl⟩

/-- If no other bracket is open, the end of the tokens releases as much as a bracket does. -/
theorem exists_outer {arguments : Nat} (encloses : Encloses 0 (stack ++ [.bracket arguments]))
    (output : List Token)
    : ∃ complete, Converter.releaseAll stack output = some complete
        ∧ ∀ count, Converter.releaseToBracket (stack ++ [.bracket count]) output
          = some (count, [], complete) := by
  induction stack generalizing output with
  | nil => exact ⟨output, rfl, fun _ => rfl⟩
  | cons top stack ih =>
      cases top with
      | operator op =>
          cases encloses with
          | operator _ encloses => exact ih encloses _
      | function f =>
          cases encloses with
          | function _ encloses => exact ih encloses _
      | bracket n =>
          have below := encloses.eq_nil_of_bracket
          simp at below

end Encloses

namespace Converter

/-- The converter inside a bracket that stands in front of everything. -/
def enclosed (c : Converter) : Converter :=
  c.above [.bracket 1]

variable {c : Converter} {depth behind : Nat}

/-- A function without arguments is called alike within brackets. -/
theorem callBare_enclosed (c : Converter) (f : Function)
    : c.enclosed.callBare f = (c.callBare f).map enclosed := by
  by_cases arity : f.arity ≠ 0
  · simp only [callBare, if_pos arity]
    rfl
  · obtain ⟨stack, output, last⟩ := c
    cases stack with
    | nil =>
        simp only [callBare, if_neg arity]
        rfl
    | cons top stack =>
        by_cases waits : top = .function f
        · simp [callBare, arity, enclosed, above, waits, Except.map]
        · simp [callBare, arity, enclosed, above, waits, Except.map]

/-- A function in last place is settled alike within brackets. -/
theorem settle_enclosed (c : Converter) (next : Option Token)
    : c.enclosed.settle next = (c.settle next).map enclosed := by
  by_cases bare : ∃ f, c.last = some (.function f) ∧ next ≠ some .openBracket
  · obtain ⟨f, last, other⟩ := bare
    have settles (d : Converter) (same : d.last = c.last) : d.settle next = d.callBare f := by
      simp [settle, same, last, other]
    rw [settles c rfl, settles c.enclosed rfl, callBare_enclosed]
  · have settles (d : Converter) (same : d.last = c.last) : d.settle next = .ok d := by
      unfold settle
      grind
    rw [settles c rfl, settles c.enclosed rfl]
    rfl

/-- Within brackets a closing bracket meets the same stack above the one that encloses it. -/
theorem closingStack_enclosed (nonempty : c.stack ≠ [])
    : c.enclosed.closingStack = c.closingStack ++ [.bracket 1] := by
  obtain ⟨stack, output, last⟩ := c
  obtain ⟨top, rest, rfl⟩ := List.exists_cons_of_ne_nil nonempty
  by_cases empty : last = some .openBracket ∧ ∃ arguments, top = .bracket arguments
  · obtain ⟨rfl, arguments, rfl⟩ := empty
    rfl
  · have same (behind : List Waiting)
        : closingStack ⟨top :: behind, output, last⟩ = top :: behind := by
      unfold closingStack
      grind
    rw [same]
    exact same (rest ++ [.bracket 1])

/-- A stack without a bracket on top stays as it is. -/
theorem closingStack_of_free (free : ∀ arguments, c.stack.head? ≠ some (.bracket arguments))
    : c.closingStack = c.stack := by
  unfold closingStack
  split
  · rename_i stack _ top
    exact absurd (congrArg List.head? top) (free _)
  · rfl

/-- The bracket in front counts at most one argument. -/
theorem exists_closingStack_enclosed (encloses : Encloses 0 c.enclosed.stack)
    : ∃ arguments ≤ 1, c.enclosed.closingStack = c.stack ++ [.bracket arguments] := by
  obtain ⟨stack, output, last⟩ := c
  cases stack with
  | nil =>
      by_cases opens : last = some .openBracket
      · subst opens
        exact ⟨0, Nat.zero_le 1, rfl⟩
      · exact ⟨1, Nat.le_refl 1, closingStack_of_last opens⟩
  | cons top stack =>
      refine ⟨1, Nat.le_refl 1, closingStack_of_free fun arguments bracket => ?_⟩
      obtain rfl : top = .bracket arguments := Option.some.inj bracket
      have below := encloses.eq_nil_of_bracket
      simp at below

/-- A group inside a bracket is completed as it is without. -/
theorem completeGroup_enclosed (c : Converter) (arguments : Nat) (stack : List Waiting)
    (output : List Token)
    : c.enclosed.completeGroup arguments (stack ++ [.bracket 1]) output
      = (c.completeGroup arguments stack output).map enclosed := by
  rcases stack with - | ⟨op | f | n, stack⟩
  all_goals
    simp only [completeGroup, List.nil_append, List.cons_append]
    split <;> rfl

/-- No token but a separator outside all other brackets, or the bracket that closes, meets the
bracket in front of everything.
-/
theorem take_enclosed (encloses : Encloses depth c.enclosed.stack) {t : Token}
    (inside : levelBehind false depth t = some behind)
    : c.enclosed.take t = (c.take t).map enclosed := by
  cases t with
  | number x | constant x | function f | openBracket => rfl
  | operator op =>
      simp only [take, enclosed, above, releaseBefore_append_bracket]
      rfl
  | separator =>
      cases depth with
      | zero => cases inside
      | succ depth =>
          obtain ⟨inner, rest, complete, released⟩ := encloses.exists_inner c.output
          have released' := releaseToBracket_append released [.bracket 1]
          simp only [take, separate, enclosed, above, released, released']
          rfl
  | closeBracket =>
      cases depth with
      | zero => cases inside
      | succ depth =>
          have nonempty : c.stack ≠ [] := by
            obtain ⟨inner, rest, complete, released⟩ := encloses.exists_inner c.output
            rintro empty
            rw [empty] at released
            cases released
          have closing := (closingStack_above encloses).1
          rw [closingStack_enclosed nonempty] at closing
          obtain ⟨inner, rest, complete, released⟩ := closing.exists_inner c.output
          have released' := releaseToBracket_append released [.bracket 1]
          have output : c.enclosed.output = c.output := rfl
          simp only [take, closeBracket, closingStack_enclosed nonempty, output, released,
            released']
          exact completeGroup_enclosed c inner rest complete

/-- Neither does any step of the conversion. -/
theorem pushIn_enclosed (s : State) (encloses : Encloses depth c.enclosed.stack) {t : Token}
    (inside : levelBehind false depth t = some behind)
    : c.enclosed.pushIn s t = (c.pushIn s t).map enclosed := by
  by_cases missing : t = .constant .ans ∧ s.ans = none
  · simp only [pushIn, if_pos missing]
    rfl
  · simp only [pushIn, if_neg missing, push, settle_enclosed]
    cases settled : c.settle (some t) with
    | error e => rfl
    | ok d =>
        have kept : Encloses depth d.enclosed.stack := by
          refine (confined_settle encloses (some t)).encloses d.enclosed ?_
          rw [settle_enclosed, settled]
          rfl
        simp only [Except.map, ok_bind, take_enclosed kept inside]
        cases d.take t <;> rfl

/-- A run over tokens that do not close the bracket in front is the same without it. Witness:
induction on the tokens.
-/
theorem foldlM_enclosed (s : State) {tokens : List Token}
    (encloses : Encloses depth c.enclosed.stack)
    (inside : tokens.foldlM (levelBehind false) depth = some behind)
    : tokens.foldlM (pushIn s) c.enclosed = (tokens.foldlM (pushIn s) c).map enclosed := by
  induction tokens generalizing c depth with
  | nil => rfl
  | cons t rest ih =>
      obtain ⟨between, first, later⟩ := Option.bind_eq_some_iff.mp (by simpa using inside)
      rw [List.foldlM_cons, List.foldlM_cons, pushIn_enclosed s encloses first]
      cases pushed : c.pushIn s t with
      | error e => rfl
      | ok d =>
          have kept : Encloses between d.enclosed.stack := by
            refine (confined_pushIn s encloses (depthBehind_of_levelBehind first)).encloses _ ?_
            rw [pushIn_enclosed s encloses first, pushed]
            rfl
          exact ih kept later

/-- The bracket that closes the one in front ends the conversion. -/
theorem finish_enclosed (s : State) (encloses : Encloses 0 c.enclosed.stack)
    : (c.enclosed.pushIn s .closeBracket >>= finish) = c.finish := by
  rw [pushIn_eq_settle s (by simp) (by simp), settle_enclosed]
  unfold finish
  cases settled : c.settle none with
  | error e => rfl
  | ok d =>
      have kept : Encloses 0 d.enclosed.stack := by
        refine (confined_settle encloses none).encloses d.enclosed ?_
        rw [settle_enclosed, settled]
        rfl
      obtain ⟨complete, released, closes⟩ := kept.exists_outer d.output
      obtain ⟨arguments, single, closing⟩ := exists_closingStack_enclosed kept
      have output : d.enclosed.output = d.output := rfl
      have taken
          : d.enclosed.take .closeBracket = .ok { d with stack := [], output := complete } := by
        simp only [take, closeBracket, closing, output, closes]
        exact completeGroup_of_group (by simp) single
      simp only [Except.map, ok_bind, taken, released]
      rfl

--------------------------------------------------------------------------------
-- All tokens between brackets
--------------------------------------------------------------------------------

/-- Behind the bracket in front, the first token is converted as if nothing had been. -/
theorem pushIn_behindBracket (s : State) {t : Token} {level : Nat}
    (inside : levelBehind false 0 t = some level)
    : (behindBracket []).pushIn s t = (enclosed {}).pushIn s t := by
  cases t with
  | closeBracket | separator => cases inside
  | number x | constant x | operator op | function f | openBracket => rfl

end Converter

open Converter

/-- Brackets around tokens that are balanced, without separators outside their brackets, do not
change the postfix order or the error. Witness: the run from the first token to the last is the same
above the bracket in front, and closing that bracket ends it.
-/
theorem ofTokens_enclosed {tokens : List Token} (enclosable : Enclosable tokens) (s : State)
    : ofTokens (.openBracket :: tokens ++ [.closeBracket]) s = ofTokens tokens s := by
  have opened : ({} : Converter).pushIn s .openBracket = .ok (behindBracket []) := rfl
  cases tokens with
  | nil => rfl
  | cons t rest =>
      have inside : (t :: rest).foldlM (levelBehind false) 0 = some 0 := enclosable
      obtain ⟨level, first, _⟩ := Option.bind_eq_some_iff.mp (by simpa using inside)
      have starts : Encloses 0 (enclosed {}).stack := .bottom 1
      have runs := foldlM_enclosed s starts inside
      calc
        ofTokens (.openBracket :: t :: rest ++ [.closeBracket]) s
        _ = ((t :: rest).foldlM (pushIn s) (behindBracket [])
              >>= (·.pushIn s .closeBracket)) >>= finish := by
            simp [ofTokens, opened, List.foldlM_append]
        _ = (t :: rest).foldlM (pushIn s) (enclosed {})
              >>= fun c => c.pushIn s .closeBracket >>= finish := by
            rw [List.foldlM_cons, List.foldlM_cons, pushIn_behindBracket s first, bind_assoc]
        _ = (t :: rest).foldlM (pushIn s) {} >>= finish := by
            rw [runs]
            cases run : (t :: rest).foldlM (pushIn s) {} with
            | error e => rfl
            | ok c =>
                have kept : Encloses 0 c.enclosed.stack := by
                  refine (confined_run s starts (Enclosable.balanced enclosable)).encloses _ ?_
                  rw [runs, run]
                  rfl
                exact finish_enclosed s kept

end Calculator.Postfix
