import Calculator.Proofs.Infix.Separation
import Calculator.Proofs.Operation
import Calculator.Proofs.Postfix.Evaluation
import Calculator.Proofs.Postfix.Permutation
import Calculator.Proofs.Sentence.Conversion
import Calculator.Proofs.Sentence.Counting

/-! Nothing malformed has a value. The number of values that a run leaves is a matter of
counting tokens, and where no multiplication sign is missing only a sentence leaves one.
-/

namespace Calculator

namespace Postfix

open Machine

/-- A token leaves one value in the place of its operands. -/
theorem weight_of_operands? {t : Token} {taken : Nat} (takes : operands? t = some taken)
    : t.weight = 1 - taken := by
  cases t with
  | number x | constant c | operator op =>
      cases takes
      rfl
  | function f =>
      cases f <;> cases takes <;> rfl
  | openBracket | closeBracket | separator => cases takes

/-- A step adds the weight of its token to the number of values. -/
theorem step_length {m next : Machine} {t : Token} (stepped : m.step t = .ok next)
    : (next.values.length : Int) = m.values.length + t.weight := by
  obtain ⟨x, operands, rest, takes, values, replaced, _⟩ := step_eq_ok stepped
  rw [weight_of_operands? takes, values, replaced, List.length_append, List.length_cons]
  push_cast
  omega

/-- A run adds as many values as the weights of its tokens add up to. -/
theorem run_length {tokens : List Token} {m final : Machine}
    (run : tokens.foldlM Machine.step m = .ok final)
    : (final.values.length : Int) = m.values.length + net tokens := by
  induction tokens generalizing m with
  | nil =>
      cases run
      simp
  | cons t rest ih =>
      obtain ⟨next, stepped, run⟩ := bind_eq_ok_iff.mp (by simpa using run)
      rw [ih run, step_length stepped, net_cons, Int.add_assoc]

/-- No operation on numbers finds superfluous values. -/
theorem ne_tooManyOperands_of_isProper {result : Except CalcError Float}
    (proper : IsProper result)
    : result ≠ .error .tooManyOperands := by
  intro failed
  cases proper.isArithmetic failed

/-- A call does not find values left over. -/
theorem call_ne_tooManyOperands (m : Machine) (f : Function)
    : m.call f ≠ .error .tooManyOperands := by
  intro failed
  unfold call at failed
  split at failed
  · cases failed
  · rcases bind_eq_error_iff.mp failed with failed | ⟨x, _, failed⟩
    · exact ne_tooManyOperands_of_isProper (UnaryFunction.apply_isProper _ _ _) failed
    · cases failed
  · cases failed
  · rcases bind_eq_error_iff.mp failed with failed | ⟨x, _, failed⟩
    · exact ne_tooManyOperands_of_isProper (powerResult_isProper _ _ _) failed
    · cases failed
  · cases failed

/-- Superfluous values are noticed at the end only. -/
theorem step_ne_tooManyOperands (m : Machine) (t : Token)
    : m.step t ≠ .error .tooManyOperands := by
  intro failed
  cases t with
  | number x | openBracket | closeBracket | separator => cases failed
  | constant c =>
      unfold step at failed
      dsimp only at failed
      split at failed <;> cases failed
  | operator op =>
      unfold step at failed
      split at failed <;> try contradiction
      · rcases bind_eq_error_iff.mp failed with failed | ⟨x, _, failed⟩
        · exact ne_tooManyOperands_of_isProper (Operator.apply_isProper _ _ _) failed
        · cases failed
      · cases failed
  | function f => exact call_ne_tooManyOperands m f failed

theorem run_ne_tooManyOperands (tokens : List Token) (m : Machine)
    : tokens.foldlM Machine.step m ≠ .error .tooManyOperands :=
  foldlM_ne_error step_ne_tooManyOperands tokens m

/-- An expression has a value only if its tokens leave exactly one. -/
theorem net_of_evaluate {tokens : List Token} {s next : State} {x : Float}
    (evaluated : evaluate tokens s = .ok (x, next))
    : net tokens = 1 := by
  obtain ⟨m, run, answered⟩ := bind_eq_ok_iff.mp evaluated
  obtain ⟨y, single, _⟩ := bind_eq_ok_iff.mp answered
  have length := run_length run
  obtain ⟨v, values, _⟩ := exists_of_answer single
  simp only [values, List.length_cons, List.length_nil] at length
  omega

/-- Values are left over only where the weights add up to more than one. -/
theorem net_of_tooManyOperands {tokens : List Token} {s : State}
    (failed : evaluate tokens s = .error .tooManyOperands)
    : 1 < net tokens := by
  rcases bind_eq_error_iff.mp failed with failed | ⟨m, run, failed⟩
  · exact absurd failed (run_ne_tooManyOperands tokens _)
  · have length := run_length run
    rcases bind_eq_error_iff.mp failed with failed | ⟨y, _, failed⟩
    · unfold answer at failed
      split at failed
      · cases failed
      · cases failed
      · rename_i none single
        cases values : m.values with
        | nil => exact absurd values none
        | cons x rest =>
            cases rest with
            | nil => exact absurd values (single x)
            | cons y rest =>
                simp only [values, List.length_cons, List.length_nil] at length
                omega
    · cases failed

end Postfix

--------------------------------------------------------------------------------
-- Values and sentences
--------------------------------------------------------------------------------

open Infix

theorem net_filter_isPostfix (tokens : List Token)
    : net (tokens.filter Token.isPostfix) = net tokens := by
  induction tokens with
  | nil => rfl
  | cons t rest ih => cases t <;> simp [List.filter_cons, Token.isPostfix, Token.weight, ih]

/-- The conversion keeps the number of values that are left. -/
theorem net_ofTokens {tokens output : List Token} {s : State}
    (converted : Postfix.ofTokens tokens s = .ok output)
    : net output = net tokens := by
  rw [← net_filter_isPostfix tokens]
  exact List.Perm.sum_eq ((Postfix.ofTokens_perm converted).map Token.weight)

/-- Where no multiplication sign is missing, no value is superfluous. -/
theorem evaluate_ne_tooManyOperands {tokens output : List Token} {s : State}
    (separated : Separated tokens) (converted : Postfix.ofTokens tokens s = .ok output)
    (t : State)
    : Postfix.evaluate output t ≠ .error .tooManyOperands := by
  intro failed
  have many := Postfix.net_of_tooManyOperands failed
  have bound := ((Postfix.arranged_of_ofTokens converted).counted separated).le
  rw [net_ofTokens converted] at many
  omega

/-- Where no multiplication sign is missing, only sentences have a value. -/
theorem isSentence_of_evaluate {tokens output : List Token} {s t next : State} {x : Float}
    (separated : Separated tokens) (converted : Postfix.ofTokens tokens s = .ok output)
    (evaluated : Postfix.evaluate output t = .ok (x, next))
    : IsSentence tokens := by
  have full := Postfix.net_of_evaluate evaluated
  rw [net_ofTokens converted] at full
  cases ((Postfix.arranged_of_ofTokens converted).counted separated).arguments full with
  | first sentence => exact sentence

--------------------------------------------------------------------------------
-- Superfluous values in a text
--------------------------------------------------------------------------------

/-- No lexeme is refused for values that are left over. -/
theorem lexeme_ne_tooManyOperands (l : Lexeme)
    : l.token ≠ .error .tooManyOperands := by
  intro failed
  cases l with
  | numeral run =>
      change Lexeme.numberToken run = _ at failed
      unfold Lexeme.numberToken at failed
      split at failed
      · cases failed
      · split at failed <;> cases failed
  | word run | mark c =>
      simp only [Lexeme.token] at failed
      split at failed <;> cases failed

/-- Nor is a list of lexemes. -/
theorem tokens_ne_tooManyOperands (lexemes : List Lexeme)
    : Lexeme.tokens lexemes ≠ .error .tooManyOperands := by
  induction lexemes with
  | nil => exact fun failed => nomatch failed
  | cons l rest ih =>
      intro failed
      rw [Lexeme.tokens, List.mapM_cons] at failed
      rcases bind_eq_error_iff.mp failed with failed | ⟨t, _, failed⟩
      · exact lexeme_ne_tooManyOperands l failed
      · rcases bind_eq_error_iff.mp failed with failed | ⟨ts, _, failed⟩
        · exact ih failed
        · cases failed

namespace Postfix.Converter

/-- Settling a function does not find values left over. -/
theorem settle_ne_tooManyOperands (c : Converter) (next : Option Token)
    : c.settle next ≠ .error .tooManyOperands := by
  intro failed
  unfold settle at failed
  split at failed
  · split at failed
    · cases failed
    · unfold callBare at failed
      split at failed <;> cases failed
  · cases failed

/-- Nor does taking a token. -/
theorem take_ne_tooManyOperands (c : Converter) (t : Token)
    : c.take t ≠ .error .tooManyOperands := by
  intro failed
  cases t with
  | closeBracket =>
      change c.closeBracket = _ at failed
      unfold closeBracket at failed
      split at failed
      · cases failed
      · unfold completeGroup at failed
        split at failed <;> split at failed <;> cases failed
  | separator =>
      change c.separate = _ at failed
      unfold separate at failed
      split at failed <;> cases failed
  | _ => cases failed

/-- Nor does taking it in a state that may lack an answer. -/
theorem pushIn_ne_tooManyOperands (s : State) (c : Converter) (t : Token)
    : c.pushIn s t ≠ .error .tooManyOperands := by
  intro failed
  unfold pushIn at failed
  split at failed
  · cases failed
  · rcases bind_eq_error_iff.mp failed with failed | ⟨d, _, failed⟩
    · exact settle_ne_tooManyOperands c t failed
    · rcases bind_eq_error_iff.mp failed with failed | ⟨e, _, failed⟩
      · exact take_ne_tooManyOperands d t failed
      · cases failed

theorem finish_ne_tooManyOperands (c : Converter)
    : c.finish ≠ .error .tooManyOperands := by
  intro failed
  rcases bind_eq_error_iff.mp failed with failed | ⟨d, _, failed⟩
  · exact settle_ne_tooManyOperands c none failed
  · split at failed <;> cases failed

end Postfix.Converter

theorem separated_of_tokenize {text : String} {tokens : List Token}
    (tokenized : tokenize text = .ok tokens)
    : Separated tokens := by
  obtain ⟨written, _, same⟩ := bind_eq_ok_iff.mp tokenized
  cases same
  exact separated_explicit written

/-- No text leaves values over. Witness: its tokens are separated, so their weights add up to at
most one.
-/
theorem solve_ne_tooManyOperands (text : String) (s : State)
    : (solve text s).result ≠ .error .tooManyOperands := by
  have failing {ran : Except CalcError (Float × State)} {e : CalcError}
      (failed : (Outcome.ofRun s ran).result = .error e)
      : ran = .error e := by
    cases ran with
    | error e' => simpa [Outcome.ofRun] using failed
    | ok pair => cases failed
  intro failed
  rcases bind_eq_error_iff.mp (failing failed) with failed | ⟨tokens, tokenized, failed⟩
  · rcases bind_eq_error_iff.mp failed with failed | ⟨written, _, failed⟩
    · exact tokens_ne_tooManyOperands _ failed
    · cases failed
  · rcases bind_eq_error_iff.mp failed with failed | ⟨output, converted, failed⟩
    · rcases bind_eq_error_iff.mp failed with failed | ⟨c, _, failed⟩
      · exact foldlM_ne_error (Postfix.Converter.pushIn_ne_tooManyOperands s) tokens {} failed
      · exact Postfix.Converter.finish_ne_tooManyOperands c failed
    · exact evaluate_ne_tooManyOperands (separated_of_tokenize tokenized) converted s failed

/-- Nothing malformed is given a value. Multiplication signs are missing nowhere in the tokens
of a text, and where none is missing only sentences have values and no value is superfluous.
Witness: what converts is arranged, and an arranged level leaves at most one value for each
argument.
-/
theorem only_sentences_have_values
    : (∀ text tokens, tokenize text = .ok tokens → Separated tokens)
      ∧ (∀ tokens output s, Separated tokens → Postfix.ofTokens tokens s = .ok output
          → (∀ x next, Postfix.evaluate output s = .ok (x, next) → IsSentence tokens)
            ∧ ∀ t, Postfix.evaluate output t ≠ .error .tooManyOperands)
      ∧ (∀ text s, (solve text s).result ≠ .error .tooManyOperands) :=
  ⟨fun _ _ => separated_of_tokenize,
    fun _ _ _ separated converted =>
      ⟨fun _ _ => isSentence_of_evaluate separated converted,
        evaluate_ne_tooManyOperands separated converted⟩,
    solve_ne_tooManyOperands⟩

/-- The text `(mode)tog` stands for a sentence, a product. -/
theorem only_sentences_have_values_product
    : let tokens : List Token :=
        [.openBracket, .function (.nullary .current), .closeBracket, .operator .mul,
          .function (.nullary .toggle)]
      let output : List Token :=
        [.function (.nullary .current), .function (.nullary .toggle), .operator .mul]
      Separated tokens ∧ IsSentence tokens
        ∧ ∀ t, Postfix.evaluate output t ≠ .error .tooManyOperands := by
  intro tokens output
  have tokenized : tokenize "(mode)tog" = .ok tokens := rfl
  have converted : Postfix.ofTokens tokens {} = .ok output := rfl
  have product : Operator.apply .mul 0 1 = .ok ((0 : Float) * 1) := by
    have number : ((0 : Float) * 1).isNaN = false := by decide +kernel
    have finite : ((0 : Float) * 1).isInf = false := by decide +kernel
    change finiteResult (.operator .mul) (0 * 1) = _
    rw [finiteResult, number, finite, if_neg Bool.false_ne_true, if_neg Bool.false_ne_true]
  have evaluated
      : Postfix.evaluate output {}
        = .ok (roundAnswer (0 * 1), { mode := .degree, ans := some (roundAnswer (0 * 1)) }) := by
    change (Operator.apply .mul 0 1 >>= fun x => _) >>= _ = _
    rw [product]
    rfl
  obtain ⟨separated, sentence, _⟩ := only_sentences_have_values
  have separated := separated "(mode)tog" tokens tokenized
  have parts := sentence tokens output {} separated converted
  exact ⟨separated, parts.1 _ _ evaluated, parts.2⟩

end Calculator
