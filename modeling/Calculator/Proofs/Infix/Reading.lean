import Calculator.Infix.Power
import Calculator.Infix.Sign

/-! What the readings of the later passes are put together to. -/

namespace Calculator.Infix

namespace PowerReading

@[simp]
theorem whole_operand (chain rest : Layout)
    : (operand chain rest).whole = chain.append rest :=
  rfl

@[simp]
theorem whole_power (exponent rest : Layout)
    : (power exponent rest).whole = .token (.operator .pow) (exponent.append rest) :=
  rfl

@[simp]
theorem whole_dangling (rest : Layout)
    : (dangling rest).whole = .token (.operator .pow) rest :=
  rfl

@[simp]
theorem whole_other (whole : Layout)
    : (other whole).whole = whole :=
  rfl

@[simp]
theorem whole_withPower (r : PowerReading)
    : r.withPower.whole = .token (.operator .pow) r.whole := by
  cases r <;> rfl

@[simp]
theorem whole_withSign (t : Token) (r : PowerReading)
    : (r.withSign t).whole = .token t r.whole := by
  cases r <;> rfl

end PowerReading

namespace SignReading

@[simp]
theorem whole_operand (first rest : Layout)
    : (operand first rest).whole = first.append rest :=
  rfl

@[simp]
theorem whole_other (whole : Layout)
    : (other whole).whole = whole :=
  rfl

/-- Another sign may follow a sign. -/
theorem allowsSign_of_isSign {t : Token} (sign : t.isSign = true)
    : allowsSign t = true := by
  cases t with
  | operator op => rfl
  | _ => cases sign

/-- No sign may follow an operand. -/
theorem allowsSign_of_isOperand {t : Token} {rest : Layout}
    (operand : Layout.isOperand t rest = true)
    : allowsSign t = false := by
  cases t with
  | number x | constant c | function f | closeBracket => rfl
  | operator op | openBracket | separator => cases operand

/-- A token that is no sign is kept in front of what is read behind it. -/
theorem ofLayout_of_kept {signed : Bool} {t : Token} {rest : Layout}
    (kept : signed = true → t.isSign = false)
    : ofLayout signed (.token t rest)
      = if Layout.isOperand t rest then
          operand (.token t .nil) (ofLayout false rest).whole
        else
          other (.token t (ofLayout (allowsSign t) rest).whole) := by
  cases signed with
  | false => rfl
  | true =>
      obtain ⟨add, sub⟩ : (t == .operator .add) = false ∧ (t == .operator .sub) = false := by
        simpa [Token.isSign] using kept rfl
      simp [ofLayout, add, sub]

end SignReading

end Calculator.Infix
