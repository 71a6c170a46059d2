import Mathlib.Data.List.Chain
import Calculator.Proofs.Infix.Matching

/-! Powers without signs in their exponents. There every exponent is a single operand, whatever
else may be missing or without a partner, and no power is left behind the chain that a reading
was cut from.
-/

namespace Calculator.Infix

/-- No power sign stands directly in front of a plus or minus. -/
def UnsignedPowers (tokens : List Token) : Prop :=
  tokens.IsChain (fun left right => left = .operator .pow → right.isSign = false)

/-- The powers inside a group and behind it have no signs either. -/
theorem UnsignedPowers.of_group {callee : Option Function} {inner rest : Layout}
    (unsigned : UnsignedPowers (Layout.group callee inner rest).tokens)
    : UnsignedPowers inner.tokens ∧ UnsignedPowers rest.tokens := by
  have bracketed
      : UnsignedPowers ((.openBracket :: inner.tokens) ++ (.closeBracket :: rest.tokens)) := by
    rw [Layout.tokens_group, List.append_assoc] at unsigned
    exact unsigned.right_of_append
  exact ⟨bracketed.left_of_append.tail, bracketed.right_of_append.tail⟩

/-- A layout that is a single operand without a sign: a value, a function, or a group that holds
matched brackets.
-/
inductive Layout.IsPrimary : Layout → Prop where
  | value {t : Token} (value : t.isValue = true) : IsPrimary (.token t .nil)
  | bare (f : Function) : IsPrimary (.token (.function f) .nil)
  | group (callee : Option Function) {inner : Layout} (closed : inner.Closed)
    : IsPrimary (.group callee inner .nil)

namespace Layout

theorem isPrimary_of_isOperand {t : Token} {rest : Layout} (operand : isOperand t rest = true)
    : IsPrimary (.token t .nil) := by
  cases t with
  | number x | constant x => exact .value rfl
  | function f => exact .bare f
  | operator op | openBracket | closeBracket | separator => cases operand

/-- Every bracket of a value or a call has its partner. -/
theorem IsPrimary.closed {l : Layout} (primary : l.IsPrimary)
    : l.Closed := by
  cases primary with
  | @value t value =>
      refine ⟨?_, ?_, trivial⟩
      · rintro rfl
        cases value
      · rintro rfl
        cases value
  | bare f => exact ⟨by simp, by simp, trivial⟩
  | group callee closed => exact ⟨closed, trivial⟩

/-- A value or a call does not begin with a power sign. -/
theorem IsPrimary.head?_ne_power {l : Layout} (primary : l.IsPrimary) (behind : List Token)
    : (l.tokens ++ behind).head? ≠ some (.operator .pow) := by
  cases primary with
  | value value =>
      rintro ⟨⟩
      cases value
  | bare f => simp
  | group callee closed => cases callee <;> simp

end Layout

namespace PowerReading

/-- A reading of the tokens `read`, in which a chain is one operand unless the tokens begin with
a sign, and no power sign begins what is left of the chain or of the exponent.
-/
inductive Plain : List Token → PowerReading → Prop where
  | primary {read : List Token} {chain rest : Layout} (primary : chain.IsPrimary)
    (ends : rest.tokens.head? ≠ some (.operator .pow))
    : Plain read (.operand chain rest)
  | signed {read : List Token} {t : Token} {chain rest : Layout} (sign : t.isSign = true)
    (ends : rest.tokens.head? ≠ some (.operator .pow))
    : Plain (t :: read) (.operand (.token t chain) rest)
  | power {read : List Token} {exponent rest : Layout} (primary : exponent.IsPrimary)
    (ends : rest.tokens.head? ≠ some (.operator .pow))
    : Plain read (.power exponent rest)
  | dangling {read : List Token} (rest : Layout) : Plain read (.dangling rest)
  | other {read : List Token} {whole : Layout}
    (ends : whole.tokens.head? ≠ some (.operator .pow))
    : Plain read (.other whole)

namespace Plain

variable {read : List Token} {r : PowerReading}

/-- A base becomes a primary operand with the exponent behind it, or alone. -/
theorem withBase {base : Layout → Layout} {front : List Token} (primary : (base .nil).IsPrimary)
    (tokens : ∀ l, (base l).tokens = (base .nil).tokens ++ l.tokens)
    (closed : ∀ l : Layout, l.Closed → (base l).Closed) (plain : Plain read r)
    : Plain front (r.withBase base) := by
  cases plain with
  | primary chain ends => exact .primary primary (by simpa using chain.head?_ne_power _)
  | signed sign ends =>
      refine .primary primary ?_
      rintro ⟨⟩
      cases sign
  | power exponent ends =>
      exact .primary (.group none (closed _ ⟨by simp, by simp, exponent.closed⟩)) ends
  | dangling rest =>
      refine .other ?_
      rw [tokens]
      exact primary.head?_ne_power _
  | other ends => exact .primary primary ends

/-- The exponent of a power sign has no sign of its own. -/
theorem withPower (unsigned : UnsignedPowers (.operator .pow :: read)) (plain : Plain read r)
    : Plain (.operator .pow :: read) r.withPower := by
  cases plain with
  | primary primary ends => exact .power primary ends
  | signed sign ends =>
      have allowed := (List.isChain_cons_cons.mp unsigned).1 rfl
      rw [sign] at allowed
      cases allowed
  | power _ _ | dangling _ | other _ => exact .dangling _

/-- A sign in front of what is read plainly. -/
theorem withSign {t : Token} (sign : t.isSign = true) (plain : Plain read r)
    : Plain (t :: read) (r.withSign t) := by
  have starts (l : Layout) : (Layout.token t l).tokens.head? ≠ some (.operator .pow) := by
    rintro ⟨⟩
    cases sign
  cases plain with
  | primary primary ends => exact .signed sign ends
  | signed _ ends => exact .signed sign ends
  | power _ _ | dangling _ | other _ => exact .other (starts _)

end Plain

/-- The reading of a layout is plain if no power is signed. Witness: induction on the layout. -/
theorem plain_ofLayout {l : Layout} (matched : l.Matched) (unsigned : UnsignedPowers l.tokens)
    : Plain l.tokens (ofLayout l) := by
  induction l with
  | nil => exact .other (by simp)
  | group callee inner rest _ ih =>
      have inner_closed := closed_ofLayout matched.1
      refine (ih matched.2 unsigned.of_group.2).withBase (.group callee inner_closed) ?_ ?_
      · intro l
        simp
      · exact fun l closed => ⟨inner_closed, closed⟩
  | token t rest ih =>
      have plain := ih matched unsigned.tail
      unfold ofLayout
      split
      · rename_i operand
        have primary := Layout.isPrimary_of_isOperand operand
        refine plain.withBase primary (fun l => rfl) ?_
        exact fun l closed => ⟨primary.closed.1, primary.closed.2.1, closed⟩
      · split
        · rename_i power
          subst power
          exact plain.withPower unsigned
        · split
          · rename_i sign
            exact plain.withSign sign
          · rename_i other _
            exact .other (by simpa using other)

end PowerReading

end Calculator.Infix
