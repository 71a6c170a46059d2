/-! White space around a line of input. Every character with the Unicode property
White_Space counts, which is more than the blanks between the lexemes of an expression.
-/

namespace Calculator.Text

/-- The characters with the property White_Space. -/
def isWhiteSpace (c : Char) : Bool :=
  c.isWhitespace
    || c == '\u000b' || c == '\u000c' || c == '\u0085' || c == '\u00a0' || c == '\u1680'
    || ('\u2000' ≤ c && c ≤ '\u200a')
    || c == '\u2028' || c == '\u2029' || c == '\u202f' || c == '\u205f' || c == '\u3000'

/-- A text without the white space at its ends. -/
def trim (text : List Char) : List Char :=
  ((text.dropWhile isWhiteSpace).reverse.dropWhile isWhiteSpace).reverse

end Calculator.Text
