import Calculator.Proofs.Phrase.Power

/-! Rewriting the signs of a phrase. Once its powers are bracketed, a minus sign is in front of
a single operand, which it subtracts from zero; a plus sign disappears.
-/

namespace Calculator

open Infix

namespace Infix.SignReading

@[simp]
theorem whole_ofLayout_nil (signed : Bool)
    : (ofLayout signed .nil).whole = .nil := by
  cases signed <;> rfl

theorem ofLayout_group (signed : Bool) (callee : Option Function) (inner rest : Layout)
    : ofLayout signed (.group callee inner rest)
      = operand (.group callee (ofLayout true inner).whole .nil) (ofLayout false rest).whole := by
  cases signed <;> rfl

theorem ofLayout_separator (signed : Bool) (rest : Layout)
    : ofLayout signed (.token .separator rest)
      = other (.token .separator (ofLayout true rest).whole) := by
  cases signed <;> rfl

/-- Behind an operand an operator is no sign, and a sign may stand behind it. -/
theorem ofLayout_operator (op : Operator) (rest : Layout)
    : ofLayout false (.token (.operator op) rest)
      = other (.token (.operator op) (ofLayout true rest).whole) :=
  rfl

theorem ofLayout_plus (rest : Layout)
    : ofLayout true (.token (.operator .add) rest) = ofLayout true rest :=
  rfl

theorem ofLayout_minus (rest : Layout)
    : ofLayout true (.token (.operator .sub) rest) = (ofLayout true rest).negated :=
  rfl

/-- A value or a bare function ends the operand of a sign. -/
theorem ofLayout_operand {t : Token} {rest : Layout} (value : t.isValue ∨ t.isFunction)
    (follows : rest.Follows)
    : ofLayout true (.token t rest) = operand (.token t .nil) (ofLayout false rest).whole := by
  have isOperand := Layout.isOperand_of_follows value follows
  cases t with
  | number x | constant c | function f => simp [ofLayout, isOperand]
  | _ => simp [Token.isValue, Token.isFunction] at value

end Infix.SignReading

namespace Phrase

variable {category : Category}

/-- The phrase with brackets around each power, and with a subtraction in brackets for each
minus sign.
-/
def explicit {category : Category} : Phrase .multiplied category → Phrase .explicit category
  | number x => .number x
  | constant c => .constant c
  | bare f => .bare f
  | modeCall f => .modeCall f
  | call f argument => .call f argument.explicit
  | powerCall base exponent => .powerCall base.explicit exponent.explicit
  | bracketed inner => .bracketed inner.explicit
  | single base => .single base.explicit
  | raised base exponent =>
      .single (.bracketed (.summand (.factor (.unsigned
        (.raised base.explicit exponent.explicit)))))
  | unsigned operand => .unsigned operand.explicit
  | plus _ operand => operand.explicit
  | minus _ operand =>
      .unsigned (.single (.bracketed
        (.combined .sub (.inr rfl) (.summand (.factor (.unsigned (.single (.number 0)))))
          (.factor operand.explicit))))
  | factor operand => .factor operand.explicit
  | scaled op level left right => .scaled op level left.explicit right.explicit
  | juxtaposed allowed _ _ => nomatch allowed
  | summand operand => .summand operand.explicit
  | combined op level left right => .combined op level left.explicit right.explicit

@[simp]
theorem expression_explicit (p : Phrase .multiplied category)
    : p.explicit.expression = p.expression := by
  induction p with
  | juxtaposed allowed _ _ => cases allowed
  | _ => simp_all [explicit, expression]

/-- What reading a phrase with bracketed powers for its signs gives: an operand is cut off
where it ends, and every phrase becomes `explicit`.
-/
structure RewritesSigns {category : Category} (p : Phrase .multiplied category) : Prop where
  operand
    : category.isOperand = true
      → ∀ rest : Layout, rest.Follows
      → .ofLayout true (p.grouped.layout.append rest)
        = SignReading.operand p.explicit.layout (SignReading.ofLayout false rest).whole
  whole
    : ∀ rest : Layout, rest.Follows
      → (SignReading.ofLayout true (p.grouped.layout.append rest)).whole
        = p.explicit.layout.append (SignReading.ofLayout false rest).whole

namespace RewritesSigns

theorem ofOperand {p : Phrase .multiplied category}
    (operand : ∀ rest : Layout, rest.Follows
      → .ofLayout true (p.grouped.layout.append rest)
        = SignReading.operand p.explicit.layout (SignReading.ofLayout false rest).whole)
    : RewritesSigns p where
  operand := fun _ => operand
  whole := fun rest follows => by rw [operand rest follows, SignReading.whole_operand]

theorem ofWhole {p : Phrase .multiplied category} (chain : category.isOperand = false)
    (whole : ∀ rest : Layout, rest.Follows
      → (SignReading.ofLayout true (p.grouped.layout.append rest)).whole
        = p.explicit.layout.append (SignReading.ofLayout false rest).whole)
    : RewritesSigns p where
  operand := fun operand => by simp [chain] at operand
  whole := whole

/-- Inside brackets nothing follows. -/
theorem inner {p : Phrase .multiplied category} (h : RewritesSigns p)
    : (SignReading.ofLayout true p.grouped.layout).whole = p.explicit.layout := by
  simpa using h.whole .nil trivial

/-- A chain that goes on with an operator is read in its parts. -/
theorem chain {left : Phrase .multiplied category} (op : Operator) {right explicit : Layout}
    (left_h : RewritesSigns left) {rest : Layout}
    (right_h : (SignReading.ofLayout true (right.append rest)).whole
      = explicit.append (SignReading.ofLayout false rest).whole)
    : (SignReading.ofLayout true
          ((left.grouped.layout.append (.token (.operator op) right)).append rest)).whole
      = (left.explicit.layout.append (.token (.operator op) explicit)).append
          (SignReading.ofLayout false rest).whole := by
  have follows : Layout.Follows (.token (.operator op) (right.append rest)) := trivial
  rw [Layout.append_assoc, Layout.append, left_h.whole _ follows,
    SignReading.ofLayout_operator, SignReading.whole_other, right_h, Layout.append_assoc,
    Layout.append]

end RewritesSigns

/-- Reading a phrase with bracketed powers for its signs makes it explicit. Witness: induction
on the phrase. A power is the whole content of its brackets, so a sign in front of it
takes the group.
-/
theorem rewritesSigns (p : Phrase .multiplied category)
    : RewritesSigns p := by
  induction p with
  | number x => exact .ofOperand fun rest follows => SignReading.ofLayout_operand (.inl rfl) follows
  | constant c =>
      exact .ofOperand fun rest follows => SignReading.ofLayout_operand (.inl rfl) follows
  | bare f => exact .ofOperand fun rest follows => SignReading.ofLayout_operand (.inr rfl) follows
  | modeCall f =>
      exact .ofOperand fun rest _ => SignReading.ofLayout_group true _ .nil rest
  | call f argument ih =>
      refine .ofOperand fun rest _ => ?_
      rw [grouped, layout, Layout.append, SignReading.ofLayout_group, ih.inner]
      rfl
  | powerCall base exponent base_ih exponent_ih =>
      have inner := base_ih.whole (.token .separator exponent.grouped.layout) trivial
      rw [SignReading.ofLayout_separator, SignReading.whole_other, exponent_ih.inner] at inner
      refine .ofOperand fun rest _ => ?_
      rw [grouped, layout, Layout.append, SignReading.ofLayout_group, inner]
      rfl
  | bracketed inner ih =>
      refine .ofOperand fun rest _ => ?_
      rw [grouped, layout, Layout.append, SignReading.ofLayout_group, ih.inner]
      rfl
  | single base ih => exact .ofOperand fun rest follows => ih.operand rfl rest follows
  | raised base exponent base_ih exponent_ih =>
      have inner := base_ih.chain .pow (exponent_ih.whole .nil trivial)
      simp only [Layout.append_nil, SignReading.whole_ofLayout_nil] at inner
      refine .ofOperand fun rest _ => ?_
      simp only [grouped, layout, Layout.append, SignReading.ofLayout_group, inner]
      rfl
  | unsigned operand ih => exact .ofOperand fun rest follows => ih.operand rfl rest follows
  | plus allowed operand ih =>
      refine .ofOperand fun rest follows => ?_
      rw [grouped, layout, Layout.append, SignReading.ofLayout_plus, ih.operand rfl rest follows]
      rfl
  | minus allowed operand ih =>
      refine .ofOperand fun rest follows => ?_
      rw [grouped, layout, Layout.append, SignReading.ofLayout_minus, ih.operand rfl rest follows]
      rfl
  | factor operand ih => exact .ofWhole rfl fun rest follows => ih.whole rest follows
  | scaled op level left right left_ih right_ih =>
      exact .ofWhole rfl fun rest follows => left_ih.chain op (right_ih.whole rest follows)
  | juxtaposed allowed left right _ _ => cases allowed
  | summand operand ih => exact .ofWhole rfl fun rest follows => ih.whole rest follows
  | combined op level left right left_ih right_ih =>
      exact .ofWhole rfl fun rest follows => left_ih.chain op (right_ih.whole rest follows)

/-- The passes over the tokens, one behind the other, make a phrase explicit. -/
theorem tokens_explicit (p : Phrase .multiplied category)
    : signsRewritten (powersGrouped p.tokens) = p.explicit.tokens := by
  rw [tokens_grouped rfl, signsRewritten, ofTokens_tokens rfl, (rewritesSigns p).inner,
    tokens_layout]

end Phrase

end Calculator
