import Calculator.Token

/-! Multiplication without a sign. Two neighbouring tokens that cannot stand next to each
other are the end of one operand and the beginning of another, and their product is meant.
-/

namespace Calculator.Infix

/-- Whether a multiplication sign is missing between two neighbours. Nothing is missing next
to an operator, around a separator, inside a bracket, or between a function and the bracket
of its arguments.
-/
def lacksSign : Token → Token → Bool
  | .operator _, _ | _, .operator _ => false
  | .function _, .openBracket => false
  | _, .closeBracket => false
  | .openBracket, _ => false
  | .separator, _ | _, .separator => false
  | _, _ => true

/-- Puts a token in front of others, with a multiplication sign if it is missing. -/
def prepend (t : Token) : List Token → List Token
  | [] => [t]
  | next :: rest =>
      if lacksSign t next then t :: .operator .mul :: next :: rest else t :: next :: rest

/-- Writes out the multiplication signs that are missing. -/
def multiplied (tokens : List Token) : List Token :=
  tokens.foldr prepend []

end Calculator.Infix
