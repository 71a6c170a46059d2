import Calculator.Proofs.Lexeme.Names
import Calculator.Proofs.Lexeme.Spelling
import Calculator.Proofs.Numeral.Literal
import Calculator.Proofs.Numeral.RoundTrip
import Calculator.Solve

/-! Scanning undoes the listing of tokens. The text of a token is one lexeme, the blanks of a
listing keep neighbours apart, and each lexeme is read as its token again. Numerals have no
exponents when they are scanned, so this is about numbers that are written without one.
-/

namespace Calculator

open Binary

--------------------------------------------------------------------------------
-- Numbers
--------------------------------------------------------------------------------

namespace Numeral

/-- A finite number without a sign whose numeral has no exponent. -/
def IsPositional (x : Float) : Prop :=
  ∃ b, Binary.ofFloat? x = some b ∧ b.negative = false ∧ 'e' ∉ (ofFloat x).toList

/-- The reading of literals agrees with the reading of numerals. -/
theorem read?_pointed {whole fraction : List Char} (whole_digits : IsDigits whole)
    (fraction_digits : IsDigits fraction)
    : read? (whole ++ '.' :: fraction)
      = some ⟨Nat.ofDigitChars 10 (whole ++ fraction) 0, -(fraction.length : Int)⟩ := by
  rw [read?_pointed_eq (whole_digits.notMem (by decide)), if_neg]
  rintro (second | none)
  · exact fraction_digits.notMem (by decide) second
  · exact whole_digits.1 (List.append_eq_nil_iff.mp none).1

/-- The numeral of such a number is made of digits with a point between them. -/
theorem exists_digits {x : Float} (positional : IsPositional x)
    : ∃ whole fraction, (ofFloat x).toList = whole ++ '.' :: fraction ∧ IsDigits whole
        ∧ IsDigits fraction
        ∧ Decimal.toFloat ⟨Nat.ofDigitChars 10 (whole ++ fraction) 0, -(fraction.length : Int)⟩
          = x := by
  obtain ⟨b, finite, unsigned, no_exponent⟩ := positional
  obtain ⟨-, canonical, range⟩ := parts_of_ofFloat? finite
  have text : (ofFloat x).toList = ofDecimal (written b) := by
    rw [ofFloat_eq_compact finite, compact_eq finite, unsigned, String.toList_ofList]
    rfl
  rw [text] at no_exponent ⊢
  rcases ofDecimal_forms (written b) with ⟨whole, fraction, before, behind, parts, pointed, -⟩ |
    ⟨mantissa, parts, -⟩
  · obtain ⟨m, e, nearest, reads⟩ := Decimal.toFloat_eq_store
      ⟨Nat.ofDigitChars 10 (whole ++ fraction) 0, -(fraction.length : Int)⟩
    rw [pointed.value_eq] at nearest
    obtain ⟨rfl, rfl⟩ := nearest.unique (nearest_written canonical range)
    refine ⟨whole, fraction, parts, pointed.isDigits_whole, pointed.isDigits_fraction, ?_⟩
    rw [reads, ← unsigned, store_of_ofFloat? finite]
  · rw [parts] at no_exponent
    exact absurd (by simp) no_exponent

/-- The text of a positional number holds only digits and a point. -/
theorem isNumeralChar_of_mem {x : Float} (positional : IsPositional x) {c : Char}
    (mem : c ∈ (ofFloat x).toList)
    : isNumeralChar c = true := by
  obtain ⟨whole, fraction, text, whole_digits, fraction_digits, -⟩ := exists_digits positional
  rw [text, List.mem_append, List.mem_cons] at mem
  rcases mem with digit | rfl | digit
  · simp [isNumeralChar, whole_digits.2 c digit]
  · rfl
  · simp [isNumeralChar, fraction_digits.2 c digit]

end Numeral

/-- The literal of such a number is read as that number. -/
theorem Lexeme.numberToken_ofFloat {x : Float} (positional : Numeral.IsPositional x)
    : numberToken (Numeral.ofFloat x).toList = .ok (.number x) := by
  obtain ⟨whole, fraction, text, whole_digits, fraction_digits, reads⟩ :=
    Numeral.exists_digits positional
  obtain ⟨b, finite, -⟩ := positional
  rw [numberToken, text, Numeral.read?_pointed whole_digits fraction_digits]
  simp only [reads, isInf_eq_false finite, Bool.false_eq_true, if_false]

--------------------------------------------------------------------------------
-- Tokens
--------------------------------------------------------------------------------

namespace Token

/-- The lexeme that a token is written as. -/
def lexeme : Token → Lexeme
  | number x => .numeral (Numeral.ofFloat x).toList
  | operator op => .mark (op.name.toList.headD ' ')
  | function f => .word f.name.toList
  | constant c => .word c.name.toList
  | openBracket => .mark '('
  | closeBracket => .mark ')'
  | separator => .mark ','

theorem chars_lexeme (t : Token)
    : t.lexeme.chars = t.text.toList := by
  cases t with
  | operator op => cases op <;> rfl
  | _ => rfl

/-- No symbol has the name of a bracket or of the separator. -/
theorem name_ne (symbol : Symbol) {mark : Char} (bracket : mark ∈ ['(', ')', ','])
    : symbol.name ≠ .singleton mark := by
  have word {name : String} (letters : ∀ c ∈ name.toList, c.isAlpha = true)
      : name ≠ .singleton mark := by
    rintro rfl
    have alpha := letters mark (by simp)
    revert alpha
    fin_cases bracket <;> decide
  cases symbol with
  | operator op => cases op <;> fin_cases bracket <;> decide
  | constant c => exact word c.isAlpha_of_mem_name
  | function f => exact word f.isAlpha_of_mem_name

/-- The name of a symbol stands for it. -/
theorem ofText?_name (symbol : Symbol)
    : ofText? symbol.name = some (ofSymbol symbol) := by
  have no_open : symbol.name ≠ "(" := name_ne symbol (by simp : '(' ∈ _)
  have no_close : symbol.name ≠ ")" := name_ne symbol (by simp : ')' ∈ _)
  have no_separator : symbol.name ≠ "," := name_ne symbol (by simp : ',' ∈ _)
  rw [ofText?, if_neg no_open, if_neg no_close, if_neg no_separator, Symbol.ofName?_name]
  rfl

/-- The lexeme of a token is well formed. Witness: numerals hold digits and a point, and names
consist of letters.
-/
theorem wellFormed_lexeme {t : Token} (positional : ∀ x, t = number x → Numeral.IsPositional x)
    : t.lexeme.WellFormed := by
  cases t with
  | number x =>
      have numeral := positional x rfl
      obtain ⟨whole, fraction, text, -⟩ := Numeral.exists_digits numeral
      exact ⟨by simp [text], fun c mem => Numeral.isNumeralChar_of_mem numeral mem⟩
  | operator op => cases op <;> decide
  | function f =>
      refine ⟨?_, f.isAlpha_of_mem_name⟩
      have long := f.one_lt_length_name
      rintro empty
      simp [String.toList_eq_nil_iff.mp empty] at long
  | constant c => exact ⟨by cases c <;> decide, c.isAlpha_of_mem_name⟩
  | openBracket | closeBracket | separator => decide

/-- The lexeme of a token is read as that token. -/
theorem token_lexeme {t : Token} (positional : ∀ x, t = number x → Numeral.IsPositional x)
    : t.lexeme.token = .ok t := by
  have read (other : ∀ run, t.lexeme ≠ .numeral run) (found : ofText? t.text = some t)
      : t.lexeme.token = .ok t := by
    rw [Lexeme.token_eq_ok_iff other, chars_lexeme, String.ofList_toList, found]
  cases t with
  | number x => exact Lexeme.numberToken_ofFloat (positional x rfl)
  | operator op => exact read (by simp [lexeme]) (ofText?_name (.operator op))
  | function f => exact read (by simp [lexeme]) (ofText?_name (.function f))
  | constant c => exact read (by simp [lexeme]) (ofText?_name (.constant c))
  | openBracket | closeBracket | separator => exact read (by simp [lexeme]) rfl

/-- Reading the lexemes of tokens gives the tokens back. -/
theorem tokens_lexemes {tokens : List Token}
    (positional : ∀ x, number x ∈ tokens → Numeral.IsPositional x)
    : Lexeme.tokens (tokens.map lexeme) = .ok tokens := by
  induction tokens with
  | nil => rfl
  | cons t rest ih =>
      have first : t.lexeme.token = .ok t :=
        token_lexeme fun x same => positional x (same ▸ List.mem_cons_self)
      have others := ih fun x mem => positional x (List.mem_cons_of_mem t mem)
      rw [Lexeme.tokens] at others ⊢
      rw [List.map_cons, List.mapM_cons, first, others]
      rfl

theorem joins_blank (last : Char)
    : Lexeme.joins last ' ' = false :=
  (Lexeme.joins_comm last ' ').trans (Lexeme.joins_eq_false_of_isWhitespace rfl last)

/-- A listing spells the lexemes of its tokens, by induction over the tokens. -/
theorem spells_listing {tokens : List Token}
    (positional : ∀ x, number x ∈ tokens → Numeral.IsPositional x)
    : Lexeme.Spells (listing tokens).toList (tokens.map lexeme) := by
  rw [listing, String.toList_intercalate, List.map_map]
  change Lexeme.Spells ([' '].intercalate (tokens.map fun t => t.text.toList)) _
  induction tokens with
  | nil => exact .nil
  | cons t rest ih =>
      have formed : t.lexeme.WellFormed :=
        wellFormed_lexeme fun x same => positional x (same ▸ List.mem_cons_self)
      have others := ih fun x mem => positional x (List.mem_cons_of_mem t mem)
      cases rest with
      | nil =>
          rw [List.map_singleton, List.intercalate_singleton, ← chars_lexeme,
            ← List.append_nil t.lexeme.chars]
          exact .lexeme formed (by simp) .nil
      | cons u rest =>
          rw [List.map_cons, List.map_cons, List.intercalate_cons_cons, ← chars_lexeme,
            List.append_assoc]
          refine .lexeme formed (fun last _ next first => ?_) (.blank (by decide) others)
          obtain rfl : ' ' = next := by simpa using first
          exact joins_blank last

end Token

--------------------------------------------------------------------------------
-- Reading a listing
--------------------------------------------------------------------------------

/-- Digits and points have no case. -/
theorem lowerChar_of_isNumeralChar {c : Char} (numeral : Numeral.isNumeralChar c = true)
    : Text.lowerChar c = [c] := by
  simp only [Numeral.isNumeralChar, Bool.or_eq_true, beq_iff_eq] at numeral
  rcases numeral with digit | rfl
  · simp only [Char.isDigit, Bool.and_eq_true, decide_eq_true_eq] at digit
    have high : c.toNat ≤ 57 := digit.2
    have small : ¬(65 ≤ c.toNat ∧ c.toNat ≤ 90) := by omega
    rw [Text.lowerChar, if_pos (by omega), Char.toLower, dif_neg]
    exact fun upper => small upper
  · rfl

/-- A text of digits and points stays as it is in lower case. -/
theorem lowerFrom_eq_self {text : List Char}
    (numeral : ∀ c ∈ text, Numeral.isNumeralChar c = true) (before : List Char)
    : Text.lowerFrom before text = text := by
  induction text generalizing before with
  | nil => rfl
  | cons c rest ih =>
      have first := numeral c List.mem_cons_self
      have others := ih (fun a mem => numeral a (List.mem_cons_of_mem c mem)) (c :: before)
      have sigma : c ≠ 'Σ' := by
        rintro rfl
        revert first
        decide
      rw [Text.lowerFrom, others, if_neg sigma, lowerChar_of_isNumeralChar first]
      rfl

/-- Scanning and reading the listing of tokens gives the tokens back. -/
theorem tokens_scan_listing {tokens : List Token}
    (positional : ∀ x, .number x ∈ tokens → Numeral.IsPositional x)
    : Lexeme.tokens (Lexeme.scan (Token.listing tokens).toList) = .ok tokens := by
  rw [Lexeme.scan_of_spells (Token.spells_listing positional), Token.tokens_lexemes positional]

/-- The text of a positional number stands for that number. -/
theorem tokenize_ofFloat {x : Float} (positional : Numeral.IsPositional x)
    : tokenize (Numeral.ofFloat x) = .ok [.number x] := by
  have text := lowerFrom_eq_self (fun c mem => Numeral.isNumeralChar_of_mem positional mem) []
  have alone : Token.listing [.number x] = Numeral.ofFloat x := by
    simp [Token.listing, Token.text]
  have lexed : lex (Numeral.ofFloat x) = .ok [.number x] := by
    rw [lex, Text.lowerCase, text, ← alone]
    refine tokens_scan_listing fun y mem => ?_
    obtain rfl : y = x := by simpa using mem
    exact positional
  rw [tokenize, lexed]
  rfl

/-- The listing of tokens is scanned and read as the same tokens, every number bit for bit. The
numeral of each number on its own is read as that number by the whole front end.
-/
theorem listing_reads_back {tokens : List Token}
    (positional : ∀ x, .number x ∈ tokens → Numeral.IsPositional x)
    : Lexeme.tokens (Lexeme.scan (Token.listing tokens).toList) = .ok tokens
      ∧ ∀ x, .number x ∈ tokens → tokenize (Numeral.ofFloat x) = .ok [.number x] :=
  ⟨tokens_scan_listing positional, fun x mem => tokenize_ofFloat (positional x mem)⟩

/-- A hundred thirds, with all its digits, in the brackets of a function. -/
theorem listing_reads_back_root
    : (∀ x, Token.number x ∈ [.function (.unary .sqrt), .openBracket,
          .number (.ofBits 0x4040aaaaaaaaaaab), .closeBracket] → Numeral.IsPositional x)
      ∧ Lexeme.tokens (Lexeme.scan "sqrt ( 33.333333333333339 )".toList)
        = .ok [.function (.unary .sqrt), .openBracket, .number (.ofBits 0x4040aaaaaaaaaaab),
          .closeBracket] := by
  have positional : ∀ x, Token.number x ∈ [.function (.unary .sqrt), .openBracket,
      .number (.ofBits 0x4040aaaaaaaaaaab), .closeBracket] → Numeral.IsPositional x := by
    intro x mem
    obtain rfl : x = .ofBits 0x4040aaaaaaaaaaab := by simpa using mem
    exact ⟨⟨false, 4691249611844267, -47⟩, by decide +kernel, rfl, by decide +kernel⟩
  have text
      : Token.listing [.function (.unary .sqrt), .openBracket,
          .number (.ofBits 0x4040aaaaaaaaaaab), .closeBracket]
        = "sqrt ( 33.333333333333339 )" := by
    decide +kernel
  refine ⟨positional, ?_⟩
  rw [← text]
  exact (listing_reads_back positional).1

end Calculator
