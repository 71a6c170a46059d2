import Calculator.Proofs.Lexeme.Spelling
import Calculator.Proofs.Phrase.Conversion
import Calculator.Proofs.Phrase.Juxtaposition
import Calculator.Proofs.Phrase.Sign
import Calculator.Solve

/-! From the text of a phrase to its answer. The passes over the tokens, the conversion and the
machine together find the value that the structure of the phrase determines.
-/

namespace Calculator

open Postfix

namespace Phrase

variable {category : Category}

/-- Writing out multiplications neither adds nor loses a constant. -/
theorem constant_mem_tokens_multiplied (c : Constant) (p : Phrase .written category)
    : .constant c ∈ p.multiplied.tokens ↔ .constant c ∈ p.tokens := by
  induction p <;> simp_all [multiplied, tokens]

/-- Rewriting powers and signs neither adds nor loses a constant. -/
theorem constant_mem_tokens_explicit (c : Constant) (p : Phrase .multiplied category)
    : .constant c ∈ p.explicit.tokens ↔ .constant c ∈ p.tokens := by
  induction p with
  | juxtaposed allowed _ _ => cases allowed
  | _ => simp_all [explicit, tokens]

/-- The passes over the tokens make the phrase explicit. -/
theorem explicit_tokens (p : Phrase .written category) (apart : p.Apart)
    : Infix.explicit p.tokens = p.multiplied.explicit.tokens := by
  rw [Infix.explicit, ← tokens_multiplied p apart, tokens_explicit]

/-- The postorder of an explicit sum, if the last answer is there when it is asked for. -/
theorem ofTokens_explicit (p : Phrase .explicit .sum) (s : State)
    : ofTokens p.tokens s
      = if .constant .ans ∈ p.tokens ∧ s.ans = none then .error .ansUndefined
        else .ok p.expression.postorder := by
  have ready : Converter.Ready {} := ⟨by simp, by simp⟩
  have admits : Converter.Admits [] Category.sum.level := by
    intro top rest same
    cases same
  obtain ⟨d, run, holds⟩ := converts p {} ready admits
  rw [ofTokens_of_run s run, holds.finish]

/-- Running the tokens of a phrase answers its expression. -/
theorem run_explicit_tokens (p : Phrase .written .sum) (apart : p.Apart) (s : State)
    : run (Infix.explicit p.tokens) s
      = if .constant .ans ∈ p.tokens ∧ s.ans = none then .error .ansUndefined
        else p.expression.answer s := by
  rw [run, explicit_tokens p apart, ofTokens_explicit]
  simp only [constant_mem_tokens_explicit, constant_mem_tokens_multiplied, expression_explicit,
    expression_multiplied]
  split
  · rfl
  · exact evaluate_postorder p.expression s

end Phrase

/-- Every text that writes a phrase is answered with the value of the phrase. If the phrase
asks for a last answer that is missing, that is the failure, whatever else would fail.
Witness: each pass takes the tokens of a phrase to the tokens of a phrase with the same
expression, conversion to its postorder, and the machine to its value.
-/
theorem solve_phrase {text : String} {lexemes : List Lexeme} (p : Phrase .written .sum)
    (apart : p.Apart) (spelled : Lexeme.Spells (Text.lowerCase text.toList) lexemes)
    (read : Lexeme.tokens lexemes = .ok p.tokens) (s : State)
    : solve text s
      = .ofRun s
        (if .constant .ans ∈ p.tokens ∧ s.ans = none then .error .ansUndefined
          else p.expression.answer s) := by
  have lexed : lex text = .ok p.tokens := by rw [lex, Lexeme.scan_of_spells spelled, read]
  have tokenized : tokenize text = .ok (Infix.explicit p.tokens) := by rw [tokenize, lexed]; rfl
  rw [solve, tokenized, ok_bind, Phrase.run_explicit_tokens p apart s]

/-- The phrase that is written `-2 ^ -tog ^ 2 pi(4 + ans)`. -/
def signedPowers : Phrase .written .sum :=
  let two : Phrase .written .primary := .number (Decimal.toFloat ⟨2, 0⟩)
  let four : Phrase .written .primary := .number (Decimal.toFloat ⟨4, 0⟩)
  let exponent : Phrase .written .signed :=
    .minus rfl (.unsigned (.raised (.bare .toggle) (.unsigned (.single two))))
  let power : Phrase .written .signed := .minus rfl (.unsigned (.raised two exponent))
  let bracket : Phrase .written .primary :=
    .bracketed (.combined .add (.inl rfl) (.summand (.factor (.unsigned (.single four))))
      (.factor (.unsigned (.single (.constant .ans)))))
  .summand (.juxtaposed rfl (.juxtaposed rfl (.factor power) (.single (.constant .pi)))
    (.single bracket))

/-- Both signs take the whole power behind them, and the products group from the left. -/
theorem solve_signedPowers
    : let s : State := { ans := some 1 }
      let two : Expression := .number (Decimal.toFloat ⟨2, 0⟩)
      let four : Expression := .number (Decimal.toFloat ⟨4, 0⟩)
      let exponent : Expression :=
        .operation .sub (.number 0) (.operation .pow (.modeCall .toggle) two)
      let power : Expression := .operation .sub (.number 0) (.operation .pow two exponent)
      let sum : Expression := .operation .add four (.constant .ans)
      solve "-2 ^ -TOG ^ 2 Pi(4 + ans)" s
        = .ofRun s (Expression.answer
          (.operation .mul (.operation .mul power (.constant .pi)) sum) s) := by
  have apart : signedPowers.Apart := by simp [signedPowers, Phrase.Apart, Phrase.tokens]
  have spelled
      : Lexeme.Spells (Text.lowerCase "-2 ^ -TOG ^ 2 Pi(4 + ans)".toList)
        (Lexeme.scan "-2 ^ -tog ^ 2 pi(4 + ans)".toList) :=
    Lexeme.spells_iff_scan.mpr rfl
  have read
      : Lexeme.tokens (Lexeme.scan "-2 ^ -tog ^ 2 pi(4 + ans)".toList)
        = .ok signedPowers.tokens :=
    rfl
  exact solve_phrase signedPowers apart spelled read { ans := some 1 }

end Calculator
