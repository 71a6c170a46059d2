import Calculator.Proofs.Infix.Layout
import Calculator.Proofs.Phrase.Basic

/-! The layout of a phrase follows its structure: each bracket of the phrase is a group, and a
call is a group with its function. A phrase without omitted multiplications is laid out this
way when its tokens are read.
-/

namespace Calculator

open Infix

/-- What can stand directly behind an operand: nothing more at this level, an operator, or a
separator.
-/
def Infix.Layout.Follows : Layout → Prop
  | .nil => True
  | .token (.operator _) _ | .token .separator _ => True
  | _ => False

/-- A value or a function is an operand in front of what can follow one. -/
theorem Infix.Layout.isOperand_of_follows {t : Token} {rest : Layout}
    (value : t.isValue ∨ t.isFunction) (follows : rest.Follows)
    : isOperand t rest = true := by
  have matched : rest.startsUnmatched = false := by
    cases rest with
    | token t rest => cases t <;> first | rfl | exact follows.elim
    | _ => rfl
  rcases value with value | function
  · simp [isOperand, value]
  · simp [isOperand, function, matched]

namespace Phrase

variable {style : Style} {category : Category}

/-- The layout of a phrase. -/
def layout {category : Category} : Phrase style category → Layout
  | number x => .token (.number x) .nil
  | constant c => .token (.constant c) .nil
  | bare f => .token (.function (.nullary f)) .nil
  | modeCall f => .group (some (.nullary f)) .nil .nil
  | call f argument => .group (some (.unary f)) argument.layout .nil
  | powerCall base exponent =>
      .group (some .power) (base.layout.append (.token .separator exponent.layout)) .nil
  | bracketed inner => .group none inner.layout .nil
  | single base => base.layout
  | raised base exponent => base.layout.append (.token (.operator .pow) exponent.layout)
  | unsigned operand => operand.layout
  | plus _ operand => .token (.operator .add) operand.layout
  | minus _ operand => .token (.operator .sub) operand.layout
  | factor operand => operand.layout
  | scaled op _ left right => left.layout.append (.token (.operator op) right.layout)
  | juxtaposed _ left right => left.layout.append right.layout
  | summand operand => operand.layout
  | combined op _ left right => left.layout.append (.token (.operator op) right.layout)

@[simp]
theorem tokens_layout (p : Phrase style category)
    : p.layout.tokens = p.tokens := by
  induction p <;> simp_all [layout, tokens]

/-- A function in front of what may follow an operand is called on nothing. -/
theorem read_function_of_follows {f : Function} {level : Layout} {outer : List Layout}
    (follows : level.Follows)
    : Layout.Reading.read (.function f) ⟨level, outer⟩ = ⟨.token (.function f) level, outer⟩ := by
  cases level with
  | nil => rfl
  | token t rest => rfl
  | group callee inner rest => exact follows.elim

/-- Reading the tokens of a phrase on the left of what can follow it puts its layout in front.
Witness: induction on the phrase. The brackets of a group close on the empty level, and all
other parts are followed by an operator or a separator.
-/
theorem read_tokens (gapless : style.juxtaposition = false) (p : Phrase style category)
    (level : Layout) (outer : List Layout) (follows : level.Follows)
    : p.tokens.foldr Layout.Reading.read ⟨level, outer⟩ = ⟨p.layout.append level, outer⟩ := by
  induction p generalizing level outer with
  | number x | constant c => rfl
  | bare f => exact read_function_of_follows follows
  | modeCall f => rfl
  | call f argument ih =>
      have inner := ih .nil (level :: outer) trivial
      simp [tokens, layout, Layout.Reading.read, Layout.append, inner]
  | powerCall base exponent base_ih exponent_ih =>
      have right := exponent_ih .nil (level :: outer) trivial
      have left := base_ih (.token .separator exponent.layout) (level :: outer) trivial
      simp [tokens, layout, Layout.Reading.read, Layout.append, right, left]
  | bracketed inner ih =>
      have inner := ih .nil (level :: outer) trivial
      simp [tokens, layout, Layout.Reading.read, Layout.append, inner]
  | single operand ih | unsigned operand ih | factor operand ih | summand operand ih =>
      exact ih level outer follows
  | plus _ operand ih | minus _ operand ih =>
      simp [tokens, layout, Layout.Reading.read, Layout.append, ih level outer follows]
  | raised left right left_ih right_ih
  | scaled _ _ left right left_ih right_ih
  | combined _ _ left right left_ih right_ih =>
      simp only [tokens, layout, List.foldr_append, List.foldr_cons, right_ih level outer follows,
        Layout.Reading.read, Layout.append_assoc, Layout.append]
      exact left_ih _ outer trivial
  | juxtaposed allowed left right _ _ => simp [gapless] at allowed

/-- The layout of the tokens of a phrase is the layout of the phrase. -/
theorem ofTokens_tokens (gapless : style.juxtaposition = false) (p : Phrase style category)
    : Layout.ofTokens p.tokens = p.layout := by
  have read := p.read_tokens gapless .nil [] trivial
  simp [Layout.ofTokens, read, Layout.Reading.close]

end Phrase

end Calculator
