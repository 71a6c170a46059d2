import Calculator.Proofs.Infix.Separation
import Calculator.Proofs.Sentence.Basic

/-! Where no multiplication sign is missing, an arranged level leaves at most one value for
each of its arguments, because no two operands are neighbours.
-/

namespace Calculator

open Infix

variable {separators inside : Nat} {front inner : List Token}

/-- In front of the first token of an operand there is an operator, a separator, or nothing. -/
theorem Arranged.endsOpen {first : Token} {rest : List Token}
    (arranged : Arranged separators front) (separated : Separated (front ++ first :: rest))
    (begins : first.isValue = true ∨ first.isFunction = true ∨ first = .openBracket)
    (free : first = .openBracket → ∀ f, front.getLast? ≠ some (.function f))
    : EndsOpen front := by
  intro last ends
  have fit : lacksSign last first = false := by
    simpa using (separated_append.mp separated).2.2 last ends
  have inside := arranged.getLast?_ne_openBracket
  cases last with
  | operator op => exact .inl ⟨op, rfl⟩
  | separator => exact .inr rfl
  | openBracket => exact absurd ends inside
  | function f =>
      have call : first ≠ .openBracket := fun same => free same f ends
      cases first <;> simp_all [lacksSign, Token.isValue, Token.isFunction]
  | number x | constant c | closeBracket =>
      cases first <;> simp_all [lacksSign, Token.isValue, Token.isFunction]

/-- A list ends open only if its last token is an operator or a separator. -/
theorem not_endsOpen_append {w : List Token} {last : Token} (ends : w.getLast? = some last)
    (operator : ∀ op, last ≠ .operator op) (separator : last ≠ .separator)
    : ¬ EndsOpen (front ++ w) := by
  intro starts
  rcases starts last (by simp [ends]) with ⟨op, same⟩ | same
  · exact operator op same
  · exact separator same

theorem not_endsOpen_bracketed (w inner : List Token)
    : ¬ EndsOpen (front ++ (w ++ inner ++ [.closeBracket])) := by
  have ends : (w ++ inner ++ [Token.closeBracket]).getLast? = some .closeBracket := by simp
  exact not_endsOpen_append ends (by simp) (by simp)

/-- Brackets with a single argument leave at most one value. -/
theorem Counted.single (counted : Counted inside inner) (single : argumentCount inside inner ≤ 1)
    : net inner ≤ 1 ∧ (net inner = 1 → IsSentence inner) := by
  unfold argumentCount at single
  split at single
  · rename_i empty
    subst empty
    simp
  · obtain rfl : inside = 0 := by omega
    refine ⟨counted.le, fun full => ?_⟩
    cases counted.arguments full with
    | first sentence => exact sentence

/-- A call with its arguments leaves at most one value, and one only if it is an item. -/
theorem Counted.call {f : Function} (counted : Counted inside inner)
    (arity : f.arity = argumentCount inside inner)
    : let w : List Token := .function f :: .openBracket :: inner ++ [.closeBracket]
      net w ≤ 1 ∧ (net w = 1 → IsItem w) := by
  cases f with
  | nullary f =>
      have empty : inner = [] := by
        by_contra nonempty
        simp [argumentCount, nonempty, Function.arity] at arity
      subst empty
      exact ⟨by simp [Token.weight], fun _ => .modeCall f⟩
  | unary f =>
      have weight
          : net (.function (.unary f) :: .openBracket :: inner ++ [.closeBracket]) = net inner := by
        simp [Token.weight]
      obtain ⟨bound, sentence⟩ := counted.single (Nat.le_of_eq arity.symm)
      refine ⟨by omega, fun full => ?_⟩
      exact .call f (sentence (by omega))
  | power =>
      have weight
          : net (.function .power :: .openBracket :: inner ++ [.closeBracket]) = net inner - 1 := by
        simp only [List.cons_append, net_cons, net_append, net_nil, Token.weight]
        omega
      have bound := counted.le
      obtain rfl : inside = 1 := by
        unfold argumentCount at arity
        split at arity
        · cases arity
        · exact (Nat.succ.inj arity).symm
      refine ⟨by omega, fun full => ?_⟩
      -- Two arguments that are full are two sentences with a separator between them.
      have arguments := counted.arguments (by omega)
      cases arguments with
      | next arguments exponent =>
          cases arguments with
          | first base => exact .powerCall base exponent

/-- An arranged level without missing multiplication signs. Witness: induction on the level.
Operands do not follow each other, so each one stands where an item is awaited.
-/
theorem Arranged.counted {w : List Token} (arranged : Arranged separators w)
    (separated : Separated w)
    : Counted separators w := by
  induction arranged with
  | nil => exact .nil
  | @value separators front t value arranged ih =>
      have starts := arranged.endsOpen separated (.inl value) (by
        intro same
        subst same
        cases value)
      have counted := ih (separated_append.mp separated).1
      refine counted.operand starts ?_ (fun _ => .value value) (not_endsOpen_append rfl ?_ ?_)
      · simp [weight_of_isValue value]
      · intro op same
        subst same
        cases value
      · intro same
        subst same
        cases value
  | @bare separators front f arranged ih =>
      have starts := arranged.endsOpen separated (.inr (.inl rfl)) (by simp)
      have counted := ih (separated_append.mp separated).1
      exact counted.operand starts (by simp [Token.weight]) (fun _ => .bare f)
        (not_endsOpen_append rfl (by simp) (by simp))
  | operator op _ ih => exact (ih (separated_append.mp separated).1).operator op
  | separator _ ih => exact (ih (separated_append.mp separated).1).separator
  | @call separators inside front inner f arranged inner_arranged arity ih inner_ih =>
      have starts := arranged.endsOpen separated (.inr (.inl rfl)) (by simp)
      have counted := ih (separated_append.mp separated).1
      have brackets := (separated_append.mp separated).2.1
      have inner_separated : Separated inner := by
        simp only [separated_append_closeBracket, separated_cons] at brackets
        exact brackets.1.2.2
      obtain ⟨bound, item⟩ := (inner_ih inner_separated).call arity
      exact counted.operand starts bound item
        (not_endsOpen_bracketed [.function f, .openBracket] inner)
  | @group separators inside front inner arranged free inner_arranged single ih inner_ih =>
      have starts := arranged.endsOpen separated (.inr (.inr rfl)) (fun _ => free)
      have counted := ih (separated_append.mp separated).1
      have brackets := (separated_append.mp separated).2.1
      have inner_separated : Separated inner := by
        simp only [separated_append_closeBracket, separated_cons] at brackets
        exact brackets.1.2
      obtain ⟨bound, sentence⟩ := (inner_ih inner_separated).single single
      have weight : net (.openBracket :: inner ++ [.closeBracket]) = net inner := by
        simp [Token.weight]
      refine counted.operand starts (by omega) ?_ (not_endsOpen_bracketed [.openBracket] inner)
      intro full
      exact .bracketed (sentence (by omega))

end Calculator
