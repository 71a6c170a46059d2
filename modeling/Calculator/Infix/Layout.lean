import Calculator.Token

/-! The layout of a token list: its matched brackets enclose groups, and a group is one
unit with the function that is called on it. A bracket without a partner stays a token of
its own, so every token list has a layout, and the layout writes back the same list.
-/

namespace Calculator.Infix

/-- A token list with its bracket groups. A group in front of `rest` holds `inner` between
its brackets and has the function that is called on it in front.
-/
inductive Layout where
  | nil
  | token (t : Token) (rest : Layout)
  | group (callee : Option Function) (inner rest : Layout)

namespace Layout

/-- The tokens of a layout, followed by others. -/
def tokensBefore : Layout → List Token → List Token
  | nil, tail => tail
  | token t rest, tail => t :: rest.tokensBefore tail
  | group callee inner rest, tail =>
      let bracketed := .openBracket :: inner.tokensBefore (.closeBracket :: rest.tokensBefore tail)
      match callee with
      | some f => .function f :: bracketed
      | none => bracketed

/-- The tokens of a layout. -/
def tokens (l : Layout) : List Token :=
  l.tokensBefore []

/-- Two layouts behind each other. -/
def append : Layout → Layout → Layout
  | nil, tail => tail
  | token t rest, tail => token t (rest.append tail)
  | group callee inner rest, tail => group callee inner (rest.append tail)

--------------------------------------------------------------------------------
-- Matching brackets from right to left
--------------------------------------------------------------------------------

/-- The layout of the tokens read so far. `level` is what stands on the right of the next
token inside the bracket that closes there, and `outer` holds, from the inside to the
outside, what stands on the right of each bracket that has no partner yet.
-/
structure Reading where
  level : Layout
  outer : List Layout

namespace Reading

/-- Reads one more token on the left. A function joins the group that it stands in front
of.
-/
def read (t : Token) (r : Reading) : Reading :=
  match t, r with
  | .closeBracket, ⟨level, outer⟩ => ⟨nil, level :: outer⟩
  | .openBracket, ⟨level, next :: outer⟩ => ⟨group none level next, outer⟩
  | .function f, ⟨group none inner rest, outer⟩ => ⟨group (some f) inner rest, outer⟩
  | t, ⟨level, outer⟩ => ⟨token t level, outer⟩

/-- The whole layout, in which closing brackets without a partner are tokens. -/
def close : Layout → List Layout → Layout
  | level, [] => level
  | level, next :: outer => level.append (token .closeBracket (close next outer))

end Reading

/-- The layout of a token list. -/
def ofTokens (tokens : List Token) : Layout :=
  let r := tokens.foldr Reading.read ⟨nil, []⟩
  Reading.close r.level r.outer

/-- Whether a layout begins with an opening bracket that has no partner. -/
def startsUnmatched : Layout → Bool
  | token .openBracket _ => true
  | _ => false

/-- Whether a token in front of `rest` is an operand: a value, or a function without
arguments. A function in front of a bracket without a partner is none.
-/
def isOperand (t : Token) (rest : Layout) : Bool :=
  t.isValue || (t.isFunction && !rest.startsUnmatched)

end Layout

end Calculator.Infix
