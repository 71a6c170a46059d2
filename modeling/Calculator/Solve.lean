import Calculator.Infix.Juxtaposition
import Calculator.Infix.Power
import Calculator.Infix.Sign
import Calculator.Lexeme
import Calculator.Postfix.Conversion
import Calculator.Postfix.Evaluation
import Calculator.Text.LowerCase

/-! From a text to its answer: the tokens as they are written, the tokens with everything
made explicit that the text leaves out, their postfix order, and the value. A failure at
any point leaves the state as it was.
-/

namespace Calculator

/-- The tokens of a text as they are written, in any case of letters. -/
def lex (text : String) : Except CalcError (List Token) :=
  Lexeme.tokens (Lexeme.scan (Text.lowerCase text.toList))

/-- The tokens with multiplications written out, powers bracketed, and signs rewritten. -/
def Infix.explicit (tokens : List Token) : List Token :=
  signsRewritten (powersGrouped (multiplied tokens))

/-- The infix tokens that a text stands for. -/
def tokenize (text : String) : Except CalcError (List Token) := do
  return Infix.explicit (← lex text)

/-- The answer to an expression, and the state afterwards. -/
structure Outcome where
  result : Except CalcError Float
  state : State

/-- A run that fails leaves the state alone. -/
def Outcome.ofRun (s : State) : Except CalcError (Float × State) → Outcome
  | .ok (x, next) => { result := .ok x, state := next }
  | .error e => { result := .error e, state := s }

/-- The answer to infix tokens, and the state that remembers it. -/
def run (tokens : List Token) (s : State) : Except CalcError (Float × State) := do
  Postfix.evaluate (← Postfix.ofTokens tokens s) s

/-- The answer to a text, and the state afterwards. -/
def solve (text : String) (s : State) : Outcome :=
  .ofRun s (tokenize text >>= fun tokens => run tokens s)

end Calculator
