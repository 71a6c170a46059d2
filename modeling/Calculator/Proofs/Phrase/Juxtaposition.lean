import Calculator.Proofs.Infix.Juxtaposition
import Calculator.Proofs.Phrase.Basic

/-! Writing out the multiplications of a phrase. Two operands stand next to each other only in
a product without a sign, and there the pass over the tokens puts the sign.
-/

namespace Calculator.Phrase

open Infix

variable {style : Style} {category : Category}

/-- A token with which an operand can begin. -/
def StartsOperand : Token → Prop
  | .number _ | .constant _ | .function _ | .openBracket => True
  | _ => False

/-- A token with which an operand can end. -/
def EndsOperand : Token → Prop
  | .number _ | .constant _ | .function _ | .closeBracket => True
  | _ => False

/-- An end and a beginning of operands lack a sign, unless they begin a call. -/
theorem lacksSign_of_ends_of_starts {last first : Token} (ends : EndsOperand last)
    (starts : StartsOperand first)
    (apart : ∀ f, last = .function f → first ≠ .openBracket)
    : lacksSign last first = true := by
  cases last <;> simp only [EndsOperand] at ends
  all_goals cases first <;> simp only [StartsOperand] at starts
  all_goals first
    | rfl
    | exact absurd rfl (apart _ rfl)

/-- Every phrase ends as an operand does. Witness: induction on the phrase along its right
edge.
-/
theorem exists_last (p : Phrase style category)
    : ∃ t, p.tokens.getLast? = some t ∧ EndsOperand t := by
  induction p with
  | number x => exact ⟨_, rfl, trivial⟩
  | constant c => exact ⟨_, rfl, trivial⟩
  | bare f => exact ⟨_, rfl, trivial⟩
  | modeCall f => exact ⟨_, rfl, trivial⟩
  | call f argument | powerCall base exponent | bracketed inner =>
      exact ⟨.closeBracket, by simp [tokens, List.getLast?_cons, List.getLast?_append], trivial⟩
  | single operand ih | unsigned operand ih | factor operand ih | summand operand ih => exact ih
  | plus _ operand ih | minus _ operand ih =>
      obtain ⟨t, last, ends⟩ := ih
      exact ⟨t, by simp [tokens, List.getLast?_cons, last], ends⟩
  | raised left right _ ih | scaled _ _ left right _ ih | combined _ _ left right _ ih =>
      obtain ⟨t, last, ends⟩ := ih
      exact ⟨t, by simp [tokens, List.getLast?_append, List.getLast?_cons, last], ends⟩
  | juxtaposed _ left right _ ih =>
      obtain ⟨t, last, ends⟩ := ih
      exact ⟨t, by simp [tokens, List.getLast?_append, last], ends⟩

theorem exists_head_of_primary (p : Phrase style .primary)
    : ∃ t, p.tokens.head? = some t ∧ StartsOperand t := by
  cases p <;> exact ⟨_, rfl, trivial⟩

/-- A power begins with the token of an operand. -/
theorem exists_head_of_power (p : Phrase style .power)
    : ∃ t, p.tokens.head? = some t ∧ StartsOperand t := by
  cases p with
  | single base => exact exists_head_of_primary base
  | raised base exponent =>
      obtain ⟨t, head, starts⟩ := exists_head_of_primary base
      exact ⟨t, by simp [tokens, List.head?_append, head], starts⟩

--------------------------------------------------------------------------------
-- The phrase with its multiplications
--------------------------------------------------------------------------------

/-- The phrase with all multiplications written out. -/
def multiplied {category : Category} : Phrase .written category → Phrase .multiplied category
  | number x => .number x
  | constant c => .constant c
  | bare f => .bare f
  | modeCall f => .modeCall f
  | call f argument => .call f argument.multiplied
  | powerCall base exponent => .powerCall base.multiplied exponent.multiplied
  | bracketed inner => .bracketed inner.multiplied
  | single base => .single base.multiplied
  | raised base exponent => .raised base.multiplied exponent.multiplied
  | unsigned operand => .unsigned operand.multiplied
  | plus _ operand => .plus rfl operand.multiplied
  | minus _ operand => .minus rfl operand.multiplied
  | factor operand => .factor operand.multiplied
  | scaled op level left right => .scaled op level left.multiplied right.multiplied
  | juxtaposed _ left right => .scaled .mul (.inl rfl) left.multiplied (.unsigned right.multiplied)
  | summand operand => .summand operand.multiplied
  | combined op level left right => .combined op level left.multiplied right.multiplied

@[simp]
theorem expression_multiplied (p : Phrase .written category)
    : p.multiplied.expression = p.expression := by
  induction p <;> simp_all [multiplied, expression]

/-- The pass over the tokens writes out exactly the multiplications of the phrase. Witness:
induction on the phrase. Operators, separators and brackets keep parts independent, and
where two operands meet their ends lack a sign.
-/
theorem tokens_multiplied (p : Phrase .written category) (apart : p.Apart)
    : p.multiplied.tokens = Infix.multiplied p.tokens := by
  have closed (inner : List Token)
      : Infix.multiplied (inner ++ [.closeBracket]) = Infix.multiplied inner ++ [.closeBracket] :=
    multiplied_append_of_fits (by simp)
  have chained (left right : List Token) (op : Operator)
      : Infix.multiplied (left ++ .operator op :: right)
        = Infix.multiplied left ++ .operator op :: Infix.multiplied right := by
    rw [multiplied_append_of_fits (by simp), multiplied_operator]
  induction p with
  | number x | constant c | bare f => rfl
  | modeCall f => rfl
  | call f argument ih =>
      simp only [multiplied, tokens, List.cons_append, multiplied_call, closed, ih apart]
  | powerCall base exponent base_ih exponent_ih =>
      simp only [multiplied, tokens, List.cons_append, List.append_assoc, multiplied_call,
        base_ih apart.1, exponent_ih apart.2]
      rw [multiplied_append_of_fits (by simp), multiplied_separator, closed]
  | bracketed inner ih =>
      simp only [multiplied, tokens, List.cons_append, multiplied_openBracket, closed, ih apart]
  | single operand ih | unsigned operand ih | factor operand ih | summand operand ih =>
      exact ih apart
  | plus _ operand ih | minus _ operand ih =>
      simp only [multiplied, tokens, multiplied_operator, ih apart]
  | raised left right left_ih right_ih
  | scaled _ _ left right left_ih right_ih
  | combined _ _ left right left_ih right_ih =>
      simp only [multiplied, tokens, chained, left_ih apart.1, right_ih apart.2]
  | juxtaposed _ left right left_ih right_ih =>
      obtain ⟨leftApart, rightApart, noCall⟩ := apart
      obtain ⟨last, leftLast, ends⟩ := left.exists_last
      obtain ⟨first, rightHead, starts⟩ := right.exists_head_of_power
      -- Here alone two operands meet, and `apart` keeps them from being read as a call.
      have lacks : lacksSign last first = true := by
        refine lacksSign_of_ends_of_starts ends starts ?_
        intro f callee opens
        subst callee opens
        exact noCall f leftLast rightHead
      simp only [multiplied, tokens, left_ih leftApart, right_ih rightApart,
        multiplied_append leftLast rightHead, gap, lacks, if_true, List.cons_append,
        List.nil_append]

end Calculator.Phrase
