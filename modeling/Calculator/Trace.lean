import Calculator.Solve

/-! The stages on the way from a text to its answer, up to the one that fails. -/

namespace Calculator

/-- What a run has come to. -/
inductive Stage where
  /-- The tokens as they are written. -/
  | written (tokens : List Token)
  /-- The tokens with all multiplications written out. -/
  | multiplied (tokens : List Token)
  /-- The tokens with all powers bracketed and all signs rewritten. -/
  | explicit (tokens : List Token)
  /-- The tokens in postfix order. -/
  | ordered (tokens : List Token)
  /-- The answer. -/
  | solution (x : Float)

/-- The words for a stage. -/
def Stage.message : Stage → String
  | written tokens => "tokenized infix: " ++ Token.listing tokens
  | multiplied tokens => "after implicit multiplication: " ++ Token.listing tokens
  | explicit tokens => "after handling negatives: " ++ Token.listing tokens
  | ordered tokens => "tokenized postfix: " ++ Token.listing tokens
  | solution x => "solution: " ++ Numeral.plain x

/-- The stages of a run on infix tokens. -/
def traceRun (tokens : List Token) (s : State) : List Stage :=
  match Postfix.ofTokens tokens s with
  | .error _ => []
  | .ok ordered =>
      .ordered ordered
        :: match Postfix.evaluate ordered s with
          | .error _ => []
          | .ok (x, _) => [.solution x]

/-- The stages that a text comes to before it is answered or fails. -/
def trace (text : String) (s : State) : List Stage :=
  match lex text with
  | .error _ => []
  | .ok tokens =>
      .written tokens
        :: .multiplied (Infix.multiplied tokens)
        :: .explicit (Infix.explicit tokens)
        :: traceRun (Infix.explicit tokens) s

end Calculator
