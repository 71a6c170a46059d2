import Calculator.Proofs.Infix.Juxtaposition
import Calculator.Proofs.Infix.Layout
import Calculator.Proofs.Infix.Reading
import Calculator.Solve

/-! The passes over the infix tokens add operators, brackets and zeros, and drop signs. All other
tokens stay, in the same order and each one as often.
-/

namespace Calculator.Infix

/-- A selection of tokens in which there is none that the passes add or drop. -/
structure Lasting (selects : Token → Bool) : Prop where
  operator : ∀ op, selects (.operator op) = false
  openBracket : selects .openBracket = false
  closeBracket : selects .closeBracket = false
  zero : selects (.number 0) = false

variable {selects : Token → Bool}

/-- Multiplications do not count among the tokens that last. Witness: a gap holds an operator or
nothing.
-/
theorem Lasting.filter_multiplied (lasting : Lasting selects) (tokens : List Token)
    : (multiplied tokens).filter selects = tokens.filter selects := by
  induction tokens with
  | nil => rfl
  | cons t rest ih =>
      cases rest with
      | nil => rfl
      | cons next later =>
          have nothing : (gap t next).filter selects = [] := by
            unfold gap
            split <;> simp [lasting.operator]
          rw [multiplied_cons_cons, List.filter_cons, List.filter_append, nothing, ih,
            List.nil_append, ← List.filter_cons]

namespace PowerReading

/-- A base goes in front, bracketed or not. -/
theorem filter_withBase (lasting : Lasting selects) {base : Layout → Layout} {first : List Token}
    (front : ∀ l, (base l).tokens.filter selects = first ++ l.tokens.filter selects)
    (r : PowerReading)
    : (r.withBase base).whole.tokens.filter selects = first ++ r.whole.tokens.filter selects := by
  cases r with
  | power exponent rest =>
      simp [withBase, front, Layout.append, lasting.operator, lasting.openBracket,
        lasting.closeBracket]
  | dangling rest => simp [withBase, front]
  | operand chain rest => simp [withBase, front]
  | other all => simp [withBase, front]

/-- Bracketing the powers of a layout adds brackets only. Witness: induction on the layout, whose
parts are put in front one after the other.
-/
theorem filter_ofLayout (lasting : Lasting selects) (l : Layout)
    : (ofLayout l).whole.tokens.filter selects = l.tokens.filter selects := by
  induction l with
  | nil => rfl
  | group callee inner rest inner_ih rest_ih =>
      have front (l : Layout)
          : (Layout.group callee (ofLayout inner).whole l).tokens.filter selects
            = (Layout.group callee inner .nil).tokens.filter selects
              ++ l.tokens.filter selects := by
        simp [lasting.openBracket, lasting.closeBracket, inner_ih]
      rw [ofLayout, filter_withBase lasting front, rest_ih]
      simp [lasting.openBracket, lasting.closeBracket]
  | token t rest ih =>
      have front (l : Layout)
          : (Layout.token t l).tokens.filter selects
            = [t].filter selects ++ l.tokens.filter selects :=
        List.filter_append [t] l.tokens
      unfold ofLayout
      split
      · rw [filter_withBase lasting front, ih, front]
      · split
        · rename_i power
          rw [whole_withPower, ← power, front, ih, front]
        · split
          · rw [whole_withSign, front, ih, front]
          · rw [whole, front, ih, front]

end PowerReading

theorem Lasting.filter_powersGrouped (lasting : Lasting selects) (tokens : List Token)
    : (powersGrouped tokens).filter selects = tokens.filter selects := by
  rw [powersGrouped, PowerReading.filter_ofLayout lasting, Layout.tokens_ofTokens]

namespace SignReading

theorem filter_negated (lasting : Lasting selects) (r : SignReading)
    : r.negated.whole.tokens.filter selects = r.whole.tokens.filter selects := by
  cases r <;>
    simp [negated, Layout.append, lasting.operator, lasting.openBracket, lasting.closeBracket,
      lasting.zero]

/-- Rewriting the signs of a layout adds subtractions from zero, and drops signs. Witness:
induction on the layout.
-/
theorem filter_ofLayout (lasting : Lasting selects) (signed : Bool) (l : Layout)
    : (ofLayout signed l).whole.tokens.filter selects = l.tokens.filter selects := by
  induction l generalizing signed with
  | nil => cases signed <;> rfl
  | group callee inner rest inner_ih rest_ih =>
      have inner_eq := inner_ih true
      have rest_eq := rest_ih false
      rw [ofLayout, whole]
      simp [Layout.append, lasting.openBracket, lasting.closeBracket, inner_eq, rest_eq]
  | token t rest ih =>
      have front (l : Layout)
          : (Layout.token t l).tokens.filter selects
            = [t].filter selects ++ l.tokens.filter selects :=
        List.filter_append [t] l.tokens
      have sign (op : Operator) : [Token.operator op].filter selects = [] := by
        simp [lasting.operator]
      unfold ofLayout
      split
      · rename_i plus
        have same : t = .operator .add := by simpa using (Bool.and_eq_true_iff.mp plus).2
        rw [ih, front, same, sign, List.nil_append]
      · split
        · rename_i minus
          have same : t = .operator .sub := by simpa using (Bool.and_eq_true_iff.mp minus).2
          rw [filter_negated lasting, ih, front, same, sign, List.nil_append]
        · split
          · rw [whole, Layout.append, Layout.append, front, ih, front]
          · rw [whole, front, ih, front]

end SignReading

theorem Lasting.filter_signsRewritten (lasting : Lasting selects) (tokens : List Token)
    : (signsRewritten tokens).filter selects = tokens.filter selects := by
  rw [signsRewritten, SignReading.filter_ofLayout lasting, Layout.tokens_ofTokens]

/-- The infix tokens that a text stands for are its own ones where they are neither operators nor
brackets nor zeros.
-/
theorem Lasting.filter_explicit (lasting : Lasting selects) (tokens : List Token)
    : (explicit tokens).filter selects = tokens.filter selects := by
  rw [explicit, lasting.filter_signsRewritten, lasting.filter_powersGrouped,
    lasting.filter_multiplied]

/-- A selection that holds none of the written tokens holds none of the explicit ones. -/
theorem Lasting.not_selected_explicit (lasting : Lasting selects) {tokens : List Token}
    (written : ∀ t ∈ tokens, selects t = false)
    : ∀ t ∈ explicit tokens, selects t = false := by
  have kept : (explicit tokens).filter selects = [] := by
    rw [lasting.filter_explicit, List.filter_eq_nil_iff]
    simpa using written
  simpa using kept

/-- The passes keep the functions. -/
theorem lasting_isFunction
    : Lasting Token.isFunction :=
  ⟨fun _ => rfl, rfl, rfl, rfl⟩

end Calculator.Infix
