import Calculator.Error
import Calculator.Token

/-! The lexemes of an expression in lower case: numerals, words, and single characters. A
numeral or a word reaches as far as its characters do, and blanks only separate. Reading
the lexemes as tokens fails at the leftmost one that is none.
-/

namespace Calculator

/-- A piece of an expression as it is written. -/
inductive Lexeme where
  | numeral (run : List Char)
  | word (run : List Char)
  | mark (c : Char)
deriving DecidableEq

namespace Lexeme

/-- The characters of a lexeme. -/
def chars : Lexeme → List Char
  | numeral run => run
  | word run => run
  | mark c => [c]

/-- Whether two neighbouring characters belong to one lexeme. -/
def joins (a b : Char) : Bool :=
  (Numeral.isNumeralChar a && Numeral.isNumeralChar b) || (a.isAlpha && b.isAlpha)

/-- The lexeme that a run of joined characters makes up. A blank makes up none. -/
def ofRun? : List Char → Option Lexeme
  | [] => none
  | c :: rest =>
      if c.isWhitespace then
        none
      else if Numeral.isNumeralChar c then
        some (numeral (c :: rest))
      else if c.isAlpha then
        some (word (c :: rest))
      else
        some (mark c)

/-- The lexemes of a text, from left to right. -/
def scan (text : List Char) : List Lexeme :=
  (text.splitBy joins).filterMap ofRun?

/-- The token of a numeral. -/
def numberToken (run : List Char) : Except CalcError Token :=
  match Numeral.read? run with
  | none => .error (.invalidToken (.ofList run))
  | some d =>
      if d.toFloat.isInf then
        .error (.numeralOverflow (.ofList run))
      else
        .ok (.number d.toFloat)

/-- The token of a lexeme. -/
def token (l : Lexeme) : Except CalcError Token :=
  match l with
  | numeral run => numberToken run
  | word _ | mark _ =>
      match Token.ofText? (.ofList l.chars) with
      | some t => .ok t
      | none => .error (.invalidToken (.ofList l.chars))

/-- The tokens of several lexemes. The leftmost lexeme that is no token is reported. -/
def tokens (lexemes : List Lexeme) : Except CalcError (List Token) :=
  lexemes.mapM token

end Lexeme

end Calculator
