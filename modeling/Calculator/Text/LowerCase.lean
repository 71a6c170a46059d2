import Calculator.Text.CaseRanges

/-! Lower case of texts, by the full mappings of the Unicode standard: a dotted capital I
becomes two characters, and a capital sigma has a form of its own at the end of a word.
-/

namespace Calculator.Text

/-- Whether letters of some case surround or form this character. -/
def isCased (c : Char) : Bool :=
  inRanges casedRanges c.toNat

/-- Whether the search for a neighbouring cased character passes over this one. -/
def isCaseIgnorable (c : Char) : Bool :=
  inRanges caseIgnorableRanges c.toNat

/-- The lower case of a character, regardless of its neighbours. -/
def lowerChar (c : Char) : List Char :=
  if c.toNat < 128 then
    [c.toLower]
  else if c = 'İ' then
    ['i', '\u0307']
  else
    match lowerCaseRanges.find? (·.contains c.toNat) with
    | some r => [Char.ofNat (c.toNat + r.offset).toNat]
    | none => [c]

/-- Whether the first character that is not ignorable is cased. -/
def startsCased (text : List Char) : Bool :=
  (text.dropWhile isCaseIgnorable).head?.any isCased

/-- The lower case of a text that follows the characters `before`, the nearest one first. A
capital sigma gets its final form behind a cased character unless another one follows.
-/
def lowerFrom : List Char → List Char → List Char
  | _, [] => []
  | before, c :: after =>
      let lowered :=
        if c = 'Σ' then
          if startsCased before && !startsCased after then ['ς'] else ['σ']
        else
          lowerChar c
      lowered ++ lowerFrom (c :: before) after

/-- The lower case of a text. -/
def lowerCase (text : List Char) : List Char :=
  lowerFrom [] text

end Calculator.Text
