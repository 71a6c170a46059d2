import Calculator.Proofs.Phrase.Answer
import Calculator.Proofs.Postfix.Decoding
import Calculator.Proofs.Sentence.Basic

/-! The structure of a sentence. A sentence is a flat list of items and operators. The grammar
of sums, terms and powers gives it one structure, and the conversion finds that structure by
the precedence of the operators alone.
-/

namespace Calculator

open Postfix

/-- A further operand behind a phrase that is no primary, with an operator that does not bind
looser than the phrase. Witness: induction on the phrase. Where the operator is one of the
chain, the chain goes on; a tighter one takes the last operand of the chain for itself.
-/
theorem Phrase.exists_extended {category : Category} (p : Phrase .explicit category)
    (chain : category ≠ .primary) {op : Operator} (le : category.level ≤ op.precedence)
    (operand : Phrase .explicit .primary)
    : ∃ q : Phrase .explicit category, q.tokens = p.tokens ++ .operator op :: operand.tokens := by
  induction p with
  | number _ | constant _ | bare _ | modeCall _ | call _ _ _ | powerCall _ _ _ _
  | bracketed _ _ => exact absurd rfl chain
  | single base _ =>
      cases op with
      | pow => exact ⟨.raised base (.unsigned (.single operand)), rfl⟩
      | _ => exact absurd le (by decide)
  | raised base exponent _ ih =>
      obtain ⟨longer, same⟩ := ih (by simp) le
      exact ⟨.raised base longer, by simp [tokens, same]⟩
  | unsigned power ih =>
      obtain ⟨longer, same⟩ := ih (by simp) le
      exact ⟨.unsigned longer, same⟩
  | plus allowed _ _ | minus allowed _ _ => cases allowed
  | factor signed ih =>
      rcases Nat.lt_or_eq_of_le le with tighter | level
      · obtain ⟨longer, same⟩ := ih (by simp) tighter
        exact ⟨.factor longer, same⟩
      · have product := Operator.precedence_eq_two_iff.mp level.symm
        exact ⟨.scaled op product (.factor signed) (.unsigned (.single operand)), rfl⟩
  | scaled other other_level left right _ ih =>
      rcases Nat.lt_or_eq_of_le le with tighter | level
      · obtain ⟨longer, same⟩ := ih (by simp) tighter
        exact ⟨.scaled other other_level left longer, by simp [tokens, same]⟩
      · have product := Operator.precedence_eq_two_iff.mp level.symm
        exact ⟨.scaled op product (.scaled other other_level left right)
          (.unsigned (.single operand)), rfl⟩
  | juxtaposed allowed _ _ _ _ => cases allowed
  | summand term ih =>
      rcases Nat.lt_or_eq_of_le le with tighter | level
      · obtain ⟨longer, same⟩ := ih (by simp) tighter
        exact ⟨.summand longer, same⟩
      · have sum := Operator.precedence_eq_one_iff.mp level.symm
        exact ⟨.combined op sum (.summand term) (.factor (.unsigned (.single operand))), rfl⟩
  | combined other other_level left right _ ih =>
      rcases Nat.lt_or_eq_of_le le with tighter | level
      · obtain ⟨longer, same⟩ := ih (by simp) tighter
        exact ⟨.combined other other_level left longer, by simp [tokens, same]⟩
      · have sum := Operator.precedence_eq_one_iff.mp level.symm
        exact ⟨.combined op sum (.combined other other_level left right)
          (.factor (.unsigned (.single operand))), rfl⟩

mutual

/-- An item is a primary of the grammar. -/
theorem IsItem.exists_primary {w : List Token}
    : IsItem w → ∃ p : Phrase .explicit .primary, p.tokens = w
  | .number x => ⟨.number x, rfl⟩
  | .constant c => ⟨.constant c, rfl⟩
  | .bare f => ⟨.bare f, rfl⟩
  | .modeCall f => ⟨.modeCall f, rfl⟩
  | .call f argument =>
      let ⟨p, same⟩ := argument.exists_sum
      ⟨.call f p, by rw [Phrase.tokens, same]⟩
  | .powerCall base exponent =>
      let ⟨p, base_same⟩ := base.exists_sum
      let ⟨q, exponent_same⟩ := exponent.exists_sum
      ⟨.powerCall p q, by simp [Phrase.tokens, base_same, exponent_same]⟩
  | .bracketed inner =>
      let ⟨p, same⟩ := inner.exists_sum
      ⟨.bracketed p, by rw [Phrase.tokens, same]⟩

/-- A sentence is a sum of the grammar. Its operators extend the sum one after the other. -/
theorem IsSentence.exists_sum {w : List Token}
    : IsSentence w → ∃ p : Phrase .explicit .sum, p.tokens = w
  | .item item =>
      let ⟨p, same⟩ := item.exists_primary
      ⟨.summand (.factor (.unsigned (.single p))), same⟩
  | .operation op left right =>
      let ⟨p, left_same⟩ := left.exists_sum
      let ⟨operand, right_same⟩ := right.exists_primary
      have loosest : Category.sum.level ≤ op.precedence := by cases op <;> decide
      let ⟨q, same⟩ := p.exists_extended (by simp) loosest operand
      ⟨q, by rw [same, left_same, right_same]⟩

end

/-- The tokens stand for the expression by the precedence of their operators: powers bind
tightest and group from the right, then products, then sums, and both group from the left.
-/
def Parses (tokens : List Token) (e : Expression) : Prop :=
  ∃ p : Phrase .explicit .sum, p.tokens = tokens ∧ p.expression = e

theorem IsSentence.exists_parses {tokens : List Token} (sentence : IsSentence tokens)
    : ∃ e, Parses tokens e := by
  obtain ⟨p, same⟩ := sentence.exists_sum
  exact ⟨p.expression, p, same, rfl⟩

/-- What tokens stand for comes out of the conversion as its postorder. -/
theorem Parses.ofTokens {tokens : List Token} {e : Expression} (parses : Parses tokens e)
    (s : State)
    : Postfix.ofTokens tokens s
      = if .constant .ans ∈ tokens ∧ s.ans = none then .error .ansUndefined
        else .ok e.postorder := by
  obtain ⟨p, rfl, rfl⟩ := parses
  exact p.ofTokens_explicit s

/-- Tokens stand for one expression only. Witness: the conversion has one result, and it is
the postorder of one expression.
-/
theorem Parses.unique {tokens : List Token} {e e' : Expression} (parses : Parses tokens e)
    (other : Parses tokens e')
    : e' = e := by
  have result := parses.ofTokens { ans := some 0 }
  rw [other.ofTokens, if_neg (by simp), if_neg (by simp)] at result
  exact Expression.postorder_injective (Except.ok.inj result)

/-- The conversion finds the one structure that a sentence has by the precedence of its
operators, and gives the postorder of that expression. It fails only where the sentence asks
for a last answer that is missing.
-/
theorem ofTokens_sentence {tokens : List Token} (sentence : IsSentence tokens) (s : State)
    : ∃ e, Parses tokens e ∧ (∀ e', Parses tokens e' → e' = e)
        ∧ Postfix.ofTokens tokens s
          = if .constant .ans ∈ tokens ∧ s.ans = none then .error .ansUndefined
            else .ok e.postorder := by
  obtain ⟨e, parses⟩ := sentence.exists_parses
  exact ⟨e, parses, fun _ other => parses.unique other, parses.ofTokens s⟩

/-- The sentence `2 - tog ^ ans ^ e * ( pi ) - mode` is a difference whose left operand is
another one, and takes the product with the whole chain of powers as its right operand.
-/
theorem ofTokens_sentence_chains
    : let s : State := { ans := some 1 }
      let tokens : List Token :=
        [.number 2, .operator .sub, .function (.nullary .toggle), .operator .pow, .constant .ans,
          .operator .pow, .constant .e, .operator .mul, .openBracket, .constant .pi,
          .closeBracket, .operator .sub, .function (.nullary .current)]
      let power : Expression :=
        .operation .pow (.modeCall .toggle) (.operation .pow (.constant .ans) (.constant .e))
      let difference : Expression :=
        .operation .sub (.number 2) (.operation .mul power (.constant .pi))
      let e : Expression := .operation .sub difference (.modeCall .current)
      IsSentence tokens ∧ Parses tokens e ∧ Postfix.ofTokens tokens s = .ok e.postorder := by
  intro s tokens power difference e
  have two : IsSentence [.number 2] := .item (.number 2)
  have first := IsSentence.operation .sub two (.bare .toggle)
  have raised := (first.operation .pow (.constant .ans)).operation .pow (.constant .e)
  have pi : IsSentence [.constant .pi] := .item (.constant .pi)
  have product := raised.operation .mul (.bracketed pi)
  have sentence : IsSentence tokens := product.operation .sub (.bare .current)
  have parses : Parses tokens e :=
    let toggle : Phrase .explicit .primary := .bare .toggle
    let ans : Phrase .explicit .primary := .constant .ans
    let bracket : Phrase .explicit .primary :=
      .bracketed (.summand (.factor (.unsigned (.single (.constant .pi)))))
    let exponent : Phrase .explicit .power := .raised ans (.unsigned (.single (.constant .e)))
    let factor : Phrase .explicit .signed := .unsigned (.raised toggle (.unsigned exponent))
    let product : Phrase .explicit .term :=
      .scaled .mul (.inl rfl) (.factor factor) (.unsigned (.single bracket))
    let two : Phrase .explicit .sum := .summand (.factor (.unsigned (.single (.number 2))))
    let mode : Phrase .explicit .term := .factor (.unsigned (.single (.bare .current)))
    ⟨.combined .sub (.inr rfl) (.combined .sub (.inr rfl) two product) mode, rfl, rfl⟩
  obtain ⟨found, _, unique, converted⟩ := ofTokens_sentence sentence s
  rw [← unique e parses] at converted
  exact ⟨sentence, parses, by rw [converted, if_neg (by simp [s])]⟩

end Calculator
