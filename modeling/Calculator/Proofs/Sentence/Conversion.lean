import Calculator.Proofs.Postfix.Permutation
import Calculator.Proofs.Sentence.Basic

/-! Token lists that convert are arranged. The stack of the converter mirrors the levels that
are open: each bracket on it counts the separators of its level, and a function below a
bracket is called on that level.
-/

namespace Calculator.Postfix

/-- The levels that a stack keeps open behind the given tokens, from the inside to the
outside. Operators may wait anywhere above a bracket.
-/
inductive Levels : List Waiting → List Token → Prop where
  | outermost {w : List Token} (arranged : Arranged 0 w) : Levels [] w
  | operator {stack : List Waiting} {w : List Token} (op : Operator) (levels : Levels stack w)
    : Levels (.operator op :: stack) w
  | group {stack : List Waiting} {outer inner : List Token} {separators : Nat}
    (levels : Levels stack outer) (free : ∀ f, outer.getLast? ≠ some (.function f))
    (arranged : Arranged separators inner)
    : Levels (.bracket (separators + 1) :: stack) (outer ++ .openBracket :: inner)
  | call {stack : List Waiting} {outer inner : List Token} {separators : Nat} (f : Function)
    (levels : Levels stack outer) (arranged : Arranged separators inner)
    : Levels (.bracket (separators + 1) :: .function f :: stack)
      (outer ++ .function f :: .openBracket :: inner)

namespace Levels

/-- What extends the innermost level extends the whole. -/
theorem append {stack : List Waiting} {w more : List Token} (levels : Levels stack w)
    (extension : ∀ separators inner, inner <:+ w → Arranged separators inner
      → Arranged separators (inner ++ more))
    : Levels stack (w ++ more) := by
  induction levels with
  | outermost arranged => exact .outermost (extension 0 _ List.suffix_rfl arranged)
  | operator op _ ih => exact .operator op (ih extension)
  | @group stack outer inner separators levels free arranged =>
      have suffix : inner <:+ outer ++ .openBracket :: inner := ⟨outer ++ [.openBracket], by simp⟩
      simpa using Levels.group levels free (extension _ _ suffix arranged)
  | @call stack outer inner separators f levels arranged =>
      have suffix : inner <:+ outer ++ .function f :: .openBracket :: inner :=
        ⟨outer ++ [.function f, .openBracket], by simp⟩
      simpa using Levels.call f levels (extension _ _ suffix arranged)

/-- A separator is counted by the innermost bracket. -/
theorem separator {stack : List Waiting} {w : List Token} {arguments : Nat}
    (levels : Levels (.bracket arguments :: stack) w)
    : Levels (.bracket (arguments + 1) :: stack) (w ++ [.separator]) := by
  cases levels with
  | group levels free arranged => simpa using Levels.group levels free arranged.separator
  | call f levels arranged => simpa using Levels.call f levels arranged.separator

/-- Released operators leave the levels as they are. -/
theorem releaseBefore {stack : List Waiting} {w : List Token} (levels : Levels stack w)
    (op : Operator) (output : List Token)
    : Levels (Converter.releaseBefore op stack output).1 w := by
  induction levels generalizing output with
  | operator waiting levels ih =>
      unfold Converter.releaseBefore
      split
      · exact ih _
      · exact .operator waiting levels
  | outermost arranged => exact .outermost arranged
  | group levels free arranged _ => exact .group levels free arranged
  | call f levels arranged _ => exact .call f levels arranged

/-- Only operators wait above the innermost bracket. -/
theorem releaseToBracket {stack below : List Waiting} {w output complete : List Token}
    {arguments : Nat} (levels : Levels stack w)
    (released : Converter.releaseToBracket stack output = some (arguments, below, complete))
    : Levels (.bracket arguments :: below) w := by
  induction levels generalizing output with
  | outermost arranged => cases released
  | operator op levels ih => exact ih released
  | group levels free arranged _ =>
      cases released
      exact .group levels free arranged
  | call f levels arranged _ =>
      cases released
      exact .call f levels arranged

/-- If all that waits can be released, only the outermost level is left. -/
theorem releaseAll {stack : List Waiting} {w output complete : List Token}
    (levels : Levels stack w) (released : Converter.releaseAll stack output = some complete)
    : Arranged 0 w := by
  induction levels generalizing output with
  | outermost arranged => exact arranged
  | operator op levels ih => exact ih released
  | group levels free arranged _ | call f levels arranged _ => cases released

/-- Completing a group adds it to the level around it. -/
theorem completeGroup {c d : Converter} {stack : List Waiting} {w output : List Token}
    {arguments : Nat} (levels : Levels (.bracket arguments :: stack) w)
    (completed : c.completeGroup (if w.getLast? = some .openBracket then 0 else arguments) stack
      output = .ok d)
    : Levels d.stack (w ++ [.closeBracket]) := by
  have count {separators : Nat} {inner : List Token} (arranged : Arranged separators inner)
      (outer : List Token)
      : (if (outer ++ .openBracket :: inner).getLast? = some .openBracket then 0
          else separators + 1)
        = argumentCount separators inner := by
    unfold argumentCount
    by_cases empty : inner = []
    · simp [empty]
    · rw [if_neg empty, if_neg]
      rw [List.getLast?_append_of_ne_nil _ (by simp), List.getLast?_cons_of_ne_nil empty]
      exact arranged.getLast?_ne_openBracket
  cases levels with
  | @group stack outer inner separators levels free arranged =>
      rw [count arranged outer] at completed
      have single : argumentCount separators inner ≤ 1 ∧ d.stack = stack := by
        unfold Converter.completeGroup at completed
        split at completed
        · cases levels
        · split at completed
          · cases completed
          · cases completed
            exact ⟨by omega, rfl⟩
      rw [single.2, List.append_assoc]
      refine levels.append fun k level suffix level_arranged => ?_
      refine .group level_arranged ?_ arranged single.1
      intro f ends
      obtain ⟨before, same⟩ := suffix
      exact free f (by simp [← same, ends])
  | @call stack outer inner separators f levels arranged =>
      have count := count arranged (outer ++ [.function f])
      rw [List.append_assoc, List.singleton_append] at count
      rw [count] at completed
      have arity : f.arity = argumentCount separators inner ∧ d.stack = stack := by
        unfold Converter.completeGroup at completed
        dsimp only at completed
        split at completed
        · rename_i arity
          cases completed
          exact ⟨arity, rfl⟩
        · cases completed
      rw [arity.2, List.append_assoc]
      exact levels.append fun k level _ level_arranged => .call f level_arranged arranged arity.1

end Levels

/-- The stack of the converter mirrors the levels of the given tokens. A function that was
given last may still turn out to be called, and it waits on top.
-/
structure Mirrors (given : List Token) (c : Converter) : Prop where
  last : c.last = given.getLast?
  opened : c.last = some .openBracket → ∃ arguments stack, c.stack = .bracket arguments :: stack
  levels : (∀ f, c.last ≠ some (.function f)) → Levels c.stack given
  pending
    : ∀ f, c.last = some (.function f)
      → ∃ before stack, given = before ++ [.function f] ∧ c.stack = .function f :: stack
        ∧ Levels stack before

namespace Mirrors

variable {given : List Token} {c d : Converter}

/-- Unless its bracket follows, the last function is settled as a bare one. -/
theorem settle {next : Option Token} (mirrors : Mirrors given c)
    (settled : c.settle next = .ok d) (other : next ≠ some .openBracket)
    : Levels d.stack given ∧ d.last = c.last
      ∧ (c.last = some .openBracket → d.stack = c.stack) := by
  unfold Converter.settle at settled
  split at settled
  · rename_i f last
    obtain ⟨before, stack, rfl, top, levels⟩ := mirrors.pending f last
    rw [if_neg other] at settled
    unfold Converter.callBare at settled
    split at settled
    · cases settled
    · rename_i arity
      cases settled
      -- Only a function without arguments is settled, and it is a value of its level.
      refine ⟨?_, rfl, by simp [last]⟩
      obtain ⟨g, rfl⟩ : ∃ g, f = .nullary g := by
        cases f <;> simp_all [Function.arity]
      simpa [top] using levels.append fun k inner _ arranged => arranged.bare g
  · rename_i free
    cases settled
    exact ⟨mirrors.levels free, rfl, fun _ => rfl⟩

/-- An opening bracket opens a level, for the function in front of it if there is one. -/
theorem openBracket (mirrors : Mirrors given c) (settled : c.settle (some .openBracket) = .ok d)
    : Levels (.bracket 1 :: d.stack) (given ++ [.openBracket]) := by
  unfold Converter.settle at settled
  split at settled
  · rename_i f last
    obtain ⟨before, stack, rfl, top, levels⟩ := mirrors.pending f last
    cases settled
    rw [top, List.append_assoc]
    exact .call f levels .nil
  · rename_i free
    cases settled
    have last := mirrors.last
    refine .group (mirrors.levels free) ?_ .nil
    intro f ends
    exact free f (last.trans ends)

/-- A closing bracket completes the innermost level. -/
theorem closeBracket {settled : Converter} (mirrors : Mirrors given c)
    (settling : c.settle (some .closeBracket) = .ok settled)
    (closed : settled.closeBracket = .ok d)
    : Levels d.stack (given ++ [.closeBracket]) := by
  obtain ⟨levels, last, same⟩ := mirrors.settle settling (by simp)
  rw [mirrors.last] at last
  unfold Converter.closeBracket at closed
  split at closed
  · cases closed
  · rename_i arguments stack output released
    -- Directly behind its opening bracket the level has no arguments, whatever was counted.
    by_cases opened : c.last = some .openBracket
    · obtain ⟨counted, below, top⟩ := mirrors.opened opened
      have empty : given.getLast? = some .openBracket := mirrors.last ▸ opened
      rw [same opened, top] at levels
      have closing : settled.closingStack = .bracket 0 :: below := by
        simp [Converter.closingStack, last, empty, same opened, top]
      rw [closing] at released
      cases released
      exact levels.completeGroup (by rw [if_pos empty]; exact closed)
    · have nonempty : given.getLast? ≠ some .openBracket := mirrors.last ▸ opened
      have closing : settled.closingStack = settled.stack := by
        unfold Converter.closingStack
        split
        · rename_i opens _
          exact absurd (last ▸ opens) nonempty
        · rfl
      rw [closing] at released
      have innermost := levels.releaseToBracket released
      exact innermost.completeGroup (by rw [if_neg nonempty]; exact closed)

/-- Every token that is converted belongs to the innermost level, opens one, or closes it.
Witness: the cases of the token; except in front of a bracket the last function is settled.
-/
theorem push {t : Token} (mirrors : Mirrors given c) (pushed : c.push t = .ok d)
    : Mirrors (given ++ [t]) d := by
  obtain ⟨settled, taken, settling, taking, rfl⟩ := Converter.push_eq_ok_iff.mp pushed
  have last : some t = (given ++ [t]).getLast? := by simp
  cases t with
  | number x | constant x =>
      obtain ⟨levels, _, _⟩ := mirrors.settle settling (by simp)
      cases taking
      exact ⟨last, by simp,
        fun _ => levels.append fun k inner _ arranged => arranged.value rfl, by simp⟩
  | operator op =>
      obtain ⟨levels, _, _⟩ := mirrors.settle settling (by simp)
      cases taking
      refine ⟨last, by simp, fun _ => ?_, by simp⟩
      exact .operator op ((levels.releaseBefore op settled.output).append
        fun k inner _ arranged => arranged.operator op)
  | function f =>
      obtain ⟨levels, _, _⟩ := mirrors.settle settling (by simp)
      cases taking
      refine ⟨last, by simp, fun free => absurd rfl (free f), ?_⟩
      intro g same
      cases same
      exact ⟨given, settled.stack, rfl, rfl, levels⟩
  | openBracket =>
      have levels := mirrors.openBracket settling
      cases taking
      exact ⟨last, fun _ => ⟨1, settled.stack, rfl⟩, fun _ => levels, by simp⟩
  | closeBracket =>
      have levels := mirrors.closeBracket settling taking
      exact ⟨last, by simp, fun _ => levels, by simp⟩
  | separator =>
      obtain ⟨levels, _, _⟩ := mirrors.settle settling (by simp)
      change settled.separate = .ok taken at taking
      unfold Converter.separate at taking
      split at taking
      · cases taking
      · rename_i arguments stack output released
        have innermost := (levels.releaseToBracket released).separator
        cases taking
        exact ⟨last, by simp, fun _ => innermost, by simp⟩

end Mirrors

/-- The stack mirrors the levels of all tokens that were converted. -/
theorem mirrors_of_run {given : List Token} {s : State} {c : Converter}
    (run : given.foldlM (Converter.pushIn s) {} = .ok c)
    : Mirrors given c := by
  have step (past : List Token) (t : Token) (c d : Converter) (mirrors : Mirrors past c)
      (pushed : c.pushIn s t = .ok d)
      : Mirrors (past ++ [t]) d := by
    unfold Converter.pushIn at pushed
    split at pushed
    · cases pushed
    · exact mirrors.push pushed
  have start : Mirrors [] {} := ⟨rfl, by simp, fun _ => .outermost .nil, by simp⟩
  exact foldlM_preserves step start run

/-- What converts is arranged. -/
theorem arranged_of_ofTokens {given output : List Token} {s : State}
    (converted : ofTokens given s = .ok output)
    : Arranged 0 given := by
  obtain ⟨c, run, finished⟩ := bind_eq_ok_iff.mp converted
  obtain ⟨d, settling, finished⟩ := bind_eq_ok_iff.mp finished
  obtain ⟨levels, _, _⟩ := (mirrors_of_run run).settle settling (by simp)
  split at finished
  · rename_i complete released
    exact levels.releaseAll released
  · cases finished

end Calculator.Postfix
