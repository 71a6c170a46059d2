import Calculator.Proofs.Infix.Reading
import Calculator.Proofs.Phrase.Layout

/-! Bracketing the powers of a phrase. A power is bracketed where the phrase has one, together
with the whole exponent, because an operand read from the right already holds its exponent.
-/

namespace Calculator

open Infix

/-- What can follow a whole power: nothing more at this level, a separator, or an operator that
takes no exponent.
-/
def Infix.Layout.EndsPower (l : Layout) : Prop :=
  l.Follows ∧ ∀ rest, l ≠ .token (.operator .pow) rest

namespace Infix.PowerReading

@[simp]
theorem ofLayout_nil : ofLayout .nil = other .nil :=
  rfl

theorem ofLayout_separator (rest : Layout)
    : ofLayout (.token .separator rest) = other (.token .separator (ofLayout rest).whole) :=
  rfl

theorem ofLayout_pow (rest : Layout)
    : ofLayout (.token (.operator .pow) rest) = (ofLayout rest).withPower :=
  rfl

theorem ofLayout_sign (rest : Layout) {t : Token} (sign : t.isSign = true)
    : ofLayout (.token t rest) = (ofLayout rest).withSign t := by
  cases t with
  | operator op => cases op <;> first | rfl | simp [Token.isSign] at sign
  | _ => simp [Token.isSign] at sign

/-- An operator that is no power sign stays where it is. -/
theorem whole_ofLayout_operator {op : Operator} (other : op ≠ .pow) (rest : Layout)
    : (ofLayout (.token (.operator op) rest)).whole
      = .token (.operator op) (ofLayout rest).whole := by
  cases op with
  | add | sub =>
      rw [ofLayout_sign rest rfl]
      cases ofLayout rest <;> rfl
  | mul | div | rem => rfl
  | pow => contradiction

/-- In front of the end of a power there is a complete operand or none. Witness: only a power
sign at the beginning makes a reading that waits for its base.
-/
theorem withBase_of_endsPower {rest : Layout} (ends : rest.EndsPower) (base : Layout → Layout)
    : (ofLayout rest).withBase base = operand (base .nil) (ofLayout rest).whole := by
  obtain ⟨follows, noPower⟩ := ends
  cases rest with
  | nil => rfl
  | group callee inner rest => exact follows.elim
  | token t rest =>
      cases t with
      | separator => rfl
      | operator op =>
          cases op with
          | add | sub =>
              rw [ofLayout_sign rest rfl]
              cases ofLayout rest <;> rfl
          | mul | div | rem => rfl
          | pow => exact absurd rfl (noPower rest)
      | _ => exact follows.elim

theorem ofLayout_operand {t : Token} {rest : Layout} (value : t.isValue ∨ t.isFunction)
    (follows : rest.Follows)
    : ofLayout (.token t rest) = (ofLayout rest).withBase (.token t) := by
  simp [ofLayout, Layout.isOperand_of_follows value follows]

end Infix.PowerReading

namespace Phrase

variable {style : Style} {category : Category}

--------------------------------------------------------------------------------
-- The phrase with its powers in brackets
--------------------------------------------------------------------------------

/-- The phrase with brackets around each power. -/
def grouped {category : Category} : Phrase style category → Phrase style category
  | number x => .number x
  | constant c => .constant c
  | bare f => .bare f
  | modeCall f => .modeCall f
  | call f argument => .call f argument.grouped
  | powerCall base exponent => .powerCall base.grouped exponent.grouped
  | bracketed inner => .bracketed inner.grouped
  | single base => .single base.grouped
  | raised base exponent =>
      .single (.bracketed (.summand (.factor (.unsigned
        (.raised base.grouped exponent.grouped)))))
  | unsigned operand => .unsigned operand.grouped
  | plus allowed operand => .plus allowed operand.grouped
  | minus allowed operand => .minus allowed operand.grouped
  | factor operand => .factor operand.grouped
  | scaled op level left right => .scaled op level left.grouped right.grouped
  | juxtaposed allowed left right => .juxtaposed allowed left.grouped right.grouped
  | summand operand => .summand operand.grouped
  | combined op level left right => .combined op level left.grouped right.grouped

/-- What reading a phrase for its powers gives. A primary is a base for what follows it, an
operand is cut off where it ends, and every phrase has the brackets of `grouped` behind it.
-/
structure GroupsPowers {category : Category} (p : Phrase style category) : Prop where
  base
    : category = .primary
      → ∀ rest : Layout, rest.Follows
      → .ofLayout (p.layout.append rest)
        = (PowerReading.ofLayout rest).withBase p.grouped.layout.append
  operand
    : category.isOperand = true
      → ∀ rest : Layout, rest.EndsPower
      → .ofLayout (p.layout.append rest)
        = PowerReading.operand p.grouped.layout (PowerReading.ofLayout rest).whole
  whole
    : ∀ rest : Layout, rest.EndsPower
      → (PowerReading.ofLayout (p.layout.append rest)).whole
        = p.grouped.layout.append (PowerReading.ofLayout rest).whole

namespace GroupsPowers

/-- A base is a complete operand where no power sign follows. -/
theorem ofBase {p : Phrase style .primary}
    (base : ∀ rest : Layout, rest.Follows
      → .ofLayout (p.layout.append rest)
        = (PowerReading.ofLayout rest).withBase p.grouped.layout.append)
    : GroupsPowers p := by
  have operand (rest : Layout) (ends : rest.EndsPower)
      : .ofLayout (p.layout.append rest)
        = PowerReading.operand p.grouped.layout (PowerReading.ofLayout rest).whole := by
    rw [base rest ends.1, PowerReading.withBase_of_endsPower ends, Layout.append_nil]
  exact {
    base := fun _ => base
    operand := fun _ => operand
    whole := fun rest ends => by rw [operand rest ends, PowerReading.whole_operand]
  }

/-- An operand that is no primary is never a base. -/
theorem ofOperand {p : Phrase style category} (loose : category ≠ .primary)
    (operand : ∀ rest : Layout, rest.EndsPower
      → .ofLayout (p.layout.append rest)
        = PowerReading.operand p.grouped.layout (PowerReading.ofLayout rest).whole)
    : GroupsPowers p where
  base := fun primary => absurd primary loose
  operand := fun _ => operand
  whole := fun rest ends => by rw [operand rest ends, PowerReading.whole_operand]

/-- A term or a sum is read as a whole only. -/
theorem ofWhole {p : Phrase style category} (chain : category.isOperand = false)
    (whole : ∀ rest : Layout, rest.EndsPower
      → (PowerReading.ofLayout (p.layout.append rest)).whole
        = p.grouped.layout.append (PowerReading.ofLayout rest).whole)
    : GroupsPowers p where
  base := fun primary => by
    subst primary
    cases chain
  operand := fun operand => by simp [chain] at operand
  whole := whole

/-- Inside brackets nothing follows. -/
theorem inner {p : Phrase style category} (h : GroupsPowers p)
    : (PowerReading.ofLayout p.layout).whole = p.grouped.layout := by
  simpa using h.whole .nil ⟨trivial, by simp⟩

/-- A chain that goes on with an operator other than the power sign is read in its parts. -/
theorem chain {left : Phrase style category} {op : Operator} (other : op ≠ .pow)
    {right grouped : Layout} (left_h : GroupsPowers left) {rest : Layout}
    (right_h : (PowerReading.ofLayout (right.append rest)).whole
      = grouped.append (PowerReading.ofLayout rest).whole)
    : (PowerReading.ofLayout
          ((left.layout.append (.token (.operator op) right)).append rest)).whole
      = (left.grouped.layout.append (.token (.operator op) grouped)).append
          (PowerReading.ofLayout rest).whole := by
  have ends : Layout.EndsPower (.token (.operator op) (right.append rest)) := by
    refine ⟨trivial, ?_⟩
    intro later same
    cases same
    exact other rfl
  rw [Layout.append_assoc, Layout.append, left_h.whole _ ends,
    PowerReading.whole_ofLayout_operator other, right_h, Layout.append_assoc, Layout.append]

end GroupsPowers

/-- Reading a phrase for its powers finds the brackets of `grouped`. Witness: induction on the
phrase. A power takes the operand behind its sign, which already holds the whole exponent.
-/
theorem groupsPowers (gapless : style.juxtaposition = false) (p : Phrase style category)
    : GroupsPowers p := by
  induction p with
  | number x => exact .ofBase fun rest follows => PowerReading.ofLayout_operand (.inl rfl) follows
  | constant c => exact .ofBase fun rest follows => PowerReading.ofLayout_operand (.inl rfl) follows
  | bare f => exact .ofBase fun rest follows => PowerReading.ofLayout_operand (.inr rfl) follows
  | modeCall f => exact .ofBase fun rest _ => rfl
  | call f argument ih =>
      refine .ofBase fun rest _ => ?_
      simp only [layout, grouped, Layout.append, PowerReading.ofLayout, ih.inner]
  | powerCall base exponent base_ih exponent_ih =>
      refine .ofBase fun rest _ => ?_
      have ends : Layout.EndsPower (.token .separator exponent.layout) := ⟨trivial, by simp⟩
      have inner := base_ih.whole _ ends
      rw [PowerReading.ofLayout_separator, PowerReading.whole_other, exponent_ih.inner] at inner
      simp only [layout, grouped, Layout.append, PowerReading.ofLayout, inner]
  | bracketed inner ih =>
      refine .ofBase fun rest _ => ?_
      simp only [layout, grouped, Layout.append, PowerReading.ofLayout, ih.inner]
  | single base ih => exact .ofOperand (by simp) fun rest ends => ih.operand rfl rest ends
  | raised base exponent base_ih exponent_ih =>
      refine .ofOperand (by simp) fun rest ends => ?_
      have follows : Layout.Follows (.token (.operator .pow) (exponent.layout.append rest)) :=
        trivial
      -- The exponent is read first, with its own powers and signs, and ends at `rest`.
      rw [layout, Layout.append_assoc, Layout.append, base_ih.base rfl _ follows,
        PowerReading.ofLayout_pow, exponent_ih.operand rfl rest ends]
      rfl
  | unsigned operand ih => exact .ofOperand (by simp) fun rest ends => ih.operand rfl rest ends
  | plus allowed operand ih | minus allowed operand ih =>
      refine .ofOperand (by simp) fun rest ends => ?_
      rw [layout, Layout.append, PowerReading.ofLayout_sign _ rfl, ih.operand rfl rest ends]
      rfl
  | factor operand ih => exact .ofWhole rfl fun rest ends => ih.whole rest ends
  | scaled op level left right left_ih right_ih =>
      refine .ofWhole rfl fun rest ends => left_ih.chain ?_ (right_ih.whole rest ends)
      rintro rfl
      simp at level
  | juxtaposed allowed left right _ _ => simp [gapless] at allowed
  | summand operand ih => exact .ofWhole rfl fun rest ends => ih.whole rest ends
  | combined op level left right left_ih right_ih =>
      refine .ofWhole rfl fun rest ends => left_ih.chain ?_ (right_ih.whole rest ends)
      rintro rfl
      simp at level

@[simp]
theorem expression_grouped (p : Phrase style category)
    : p.grouped.expression = p.expression := by
  induction p <;> simp_all [grouped, expression]

/-- The pass over the tokens brackets exactly the powers of the phrase. -/
theorem tokens_grouped (gapless : style.juxtaposition = false) (p : Phrase style category)
    : powersGrouped p.tokens = p.grouped.tokens := by
  rw [powersGrouped, ofTokens_tokens gapless, (groupsPowers gapless p).inner, tokens_layout]

end Phrase

end Calculator
