import Calculator.Command
import Calculator.Main
import Calculator.Proofs.Answer.Decimals
import Calculator.Proofs.Answer.Finite
import Calculator.Proofs.Answer.Repetition
import Calculator.Proofs.Binary.Decimal
import Calculator.Proofs.Binary.Remainder
import Calculator.Proofs.Command
import Calculator.Proofs.Dependence
import Calculator.Proofs.Enclosing
import Calculator.Proofs.Expression
import Calculator.Proofs.Infix.Balance
import Calculator.Proofs.Infix.Boundaries
import Calculator.Proofs.Infix.Brackets
import Calculator.Proofs.Infix.Juxtaposition
import Calculator.Proofs.Infix.Layout
import Calculator.Proofs.Infix.Matching
import Calculator.Proofs.Infix.Plus
import Calculator.Proofs.Infix.Separation
import Calculator.Proofs.Infix.Unsigned
import Calculator.Proofs.Lexeme.Listing
import Calculator.Proofs.Lexeme.Names
import Calculator.Proofs.Lexeme.Refusal
import Calculator.Proofs.Lexeme.Spelling
import Calculator.Proofs.Numeral.Literal
import Calculator.Proofs.Numeral.RoundTrip
import Calculator.Proofs.Operation
import Calculator.Proofs.Phrase.Answer
import Calculator.Proofs.Phrase.Basic
import Calculator.Proofs.Phrase.Conversion
import Calculator.Proofs.Phrase.Juxtaposition
import Calculator.Proofs.Phrase.Layout
import Calculator.Proofs.Phrase.Power
import Calculator.Proofs.Phrase.Sign
import Calculator.Proofs.Postfix.Conversion
import Calculator.Proofs.Postfix.Decoding
import Calculator.Proofs.Postfix.Evaluation
import Calculator.Proofs.Postfix.Nesting
import Calculator.Proofs.Postfix.Operand
import Calculator.Proofs.Postfix.Order
import Calculator.Proofs.Postfix.Permutation
import Calculator.Proofs.Postfix.Powers
import Calculator.Proofs.Postfix.Stack
import Calculator.Proofs.Sentence.Basic
import Calculator.Proofs.Sentence.Conversion
import Calculator.Proofs.Sentence.Counting
import Calculator.Proofs.Sentence.Evaluation
import Calculator.Proofs.Sentence.Parsing
import Calculator.Proofs.Sentence.Signs
import Calculator.Proofs.Session
import Calculator.Proofs.Transcript
import Calculator.Trace
