import Calculator.Proofs.Lexeme.Division
import Calculator.Proofs.Lexeme.Names
import Calculator.Proofs.Numeral.Literal
import Calculator.Solve

/-! Which lexemes are refused, and for which of them a text is refused: the leftmost one.
-/

namespace Calculator

/-- A text that is no token is neither punctuation nor the name of a symbol. -/
theorem Token.ofText?_eq_none_iff {text : String}
    : ofText? text = none
      ↔ text ∉ ["(", ")", ","] ∧ ∀ symbol : Symbol, symbol.name ≠ text := by
  have table
      : (Symbol.ofName? text).map ofSymbol = none ↔ ∀ symbol : Symbol, symbol.name ≠ text := by
    rw [Option.map_eq_none_iff, Option.eq_none_iff_forall_ne_some]
    simp only [ne_eq, Symbol.ofName?_eq_some_iff]
  unfold ofText?
  split
  · simp_all
  · split
    · simp_all
    · split
      · simp_all
      · simp_all

theorem Operator.mem_punctuation (op : Operator)
    : ∀ c ∈ op.name.toList, c ∈ "+-*/%^(),".toList := by
  cases op <;> simp [name]

namespace Lexeme

open Numeral

/-- Why a lexeme is refused: it is a malformed or too large numeral, an unknown word, or a
character that no token begins with.
-/
inductive Refused : Lexeme → CalcError → Prop where
  | malformed {run : List Char} (malformed : IsMalformed run)
    : Refused (numeral run) (.invalidToken (.ofList run))
  | large {run : List Char} (wellFormed : ¬ IsMalformed run)
    (large : 2 ^ 1024 - 2 ^ 970 ≤ literalValue run)
    : Refused (numeral run) (.numeralOverflow (.ofList run))
  | unknown {run : List Char} (unnamed : ∀ symbol : Symbol, symbol.name.toList ≠ run)
    : Refused (word run) (.invalidToken (.ofList run))
  | foreign {c : Char} (foreign : c ∉ "+-*/%^(),".toList)
    : Refused (mark c) (.invalidToken (.ofList [c]))

/-- What is no numeral is refused exactly if its text is no token. -/
theorem token_eq_error_iff_of_ofText? {l : Lexeme} {e : CalcError}
    (other : ∀ run, l ≠ numeral run)
    : l.token = .error e
      ↔ Token.ofText? (.ofList l.chars) = none ∧ e = .invalidToken (.ofList l.chars) := by
  cases l with
  | numeral run => exact absurd rfl (other run)
  | word run | mark c =>
      unfold token
      dsimp only
      split
      · rename_i found
        simp [found]
      · rename_i missing
        simp [missing, eq_comm]

/-- A word is refused if it names no symbol. -/
theorem refused_word_iff {run : List Char} {e : CalcError}
    : Refused (word run) e
      ↔ (∀ symbol : Symbol, symbol.name.toList ≠ run) ∧ e = .invalidToken (.ofList run) := by
  constructor
  · rintro ⟨⟩
    exact ⟨‹_›, rfl⟩
  · rintro ⟨unnamed, rfl⟩
    exact .unknown unnamed

/-- A word has no punctuation, so it is refused unless a symbol has it as its name. -/
theorem token_word_eq_error_iff {run : List Char} {e : CalcError} (formed : (word run).WellFormed)
    : (word run).token = .error e ↔ Refused (word run) e := by
  have letters : String.ofList run ∉ ["(", ")", ","] := by
    intro mark
    simp only [List.mem_cons, List.not_mem_nil, or_false, ← String.toList_inj,
      String.toList_ofList] at mark
    rcases mark with rfl | rfl | rfl <;>
      exact absurd (formed.2 _ List.mem_cons_self) (by decide)
  rw [token_eq_error_iff_of_ofText? (by simp), Token.ofText?_eq_none_iff, refused_word_iff]
  simp only [chars, and_iff_right letters, ← String.toList_inj, String.toList_ofList, ne_eq]

/-- Of the names of symbols only those of operators are single characters that are no letters. -/
theorem exists_operator_of_name {symbol : Symbol} {c : Char} (alpha : c.isAlpha = false)
    (name : symbol.name = .ofList [c])
    : ∃ op : Operator, op.name = .ofList [c] := by
  cases symbol with
  | operator op => exact ⟨op, name⟩
  | function f =>
      have long := f.one_lt_length_name
      rw [show f.name = .ofList [c] from name, String.length_ofList] at long
      exact absurd long (Nat.lt_irrefl 1)
  | constant k =>
      have letters := k.isAlpha_of_mem_name c (by
        rw [show k.name = .ofList [c] from name]
        simp)
      rw [alpha] at letters
      cases letters

/-- The characters that are tokens on their own. -/
theorem ofText?_mark_eq_none_iff {c : Char} (formed : (mark c).WellFormed)
    : Token.ofText? (.ofList [c]) = none ↔ c ∉ "+-*/%^(),".toList := by
  constructor
  · intro none member
    change c ∈ ['+', '-', '*', '/', '%', '^', '(', ')', ','] at member
    fin_cases member <;> exact absurd none (by decide)
  · intro foreign
    rw [Token.ofText?_eq_none_iff]
    constructor
    · intro mark
      simp only [List.mem_cons, List.not_mem_nil, or_false, ← String.toList_inj,
        String.toList_ofList] at mark
      apply foreign
      rcases mark with same | same | same <;> cases same <;> decide
    · intro symbol name
      obtain ⟨op, name⟩ := exists_operator_of_name formed.2.2 name
      exact foreign (op.mem_punctuation c (by simp [name]))

/-- A mark is refused if it is no operator, bracket or separator. -/
theorem token_mark_eq_error_iff {c : Char} {e : CalcError} (formed : (mark c).WellFormed)
    : (mark c).token = .error e ↔ Refused (mark c) e := by
  rw [token_eq_error_iff_of_ofText? (by simp), chars, ofText?_mark_eq_none_iff formed]
  constructor
  · rintro ⟨foreign, rfl⟩
    exact .foreign foreign
  · rintro ⟨⟩
    exact ⟨‹_›, rfl⟩

/-- A run of digits and points is refused if it is malformed, or too large to be rounded to a finite
number. Witness: what is not refused reads the nearest number.
-/
theorem token_numeral_eq_error_iff {run : List Char} {e : CalcError}
    (formed : (numeral run).WellFormed)
    : (numeral run).token = .error e ↔ Refused (numeral run) e := by
  change numberToken run = .error e ↔ _
  constructor
  · intro failed
    by_cases malformed : IsMalformed run
    · rw [numberToken_of_isMalformed formed.2 malformed] at failed
      cases failed
      exact .malformed malformed
    · rcases numberToken_of_not_isMalformed formed.2 malformed with
        ⟨large, refused⟩ | ⟨-, x, b, read, -⟩
      · rw [refused] at failed
        cases failed
        exact .large malformed large
      · rw [read] at failed
        cases failed
  · intro refused
    cases refused with
    | malformed malformed => exact numberToken_of_isMalformed formed.2 malformed
    | large wellFormed large =>
        rcases numberToken_of_not_isMalformed formed.2 wellFormed with
          ⟨-, refused⟩ | ⟨small, -⟩
        · exact refused
        · exact absurd large small.not_ge

/-- A lexeme fails to be read as a token exactly if it is refused, and for the reason it is refused
for.
-/
theorem token_eq_error_iff {l : Lexeme} {e : CalcError} (formed : l.WellFormed)
    : l.token = .error e ↔ Refused l e := by
  cases l with
  | numeral run => exact token_numeral_eq_error_iff formed
  | word run => exact token_word_eq_error_iff formed
  | mark c => exact token_mark_eq_error_iff formed

end Lexeme

--------------------------------------------------------------------------------
-- The refusal of a text
--------------------------------------------------------------------------------

open Lexeme

theorem tokenize_eq_error_iff {text : String} {e : CalcError}
    : tokenize text = .error e ↔ (scan (Text.lowerCase text.toList)).mapM token = .error e := by
  rw [tokenize, bind_eq_error_iff, or_iff_left]
  · rfl
  · rintro ⟨_, _, impossible⟩
    cases impossible

/-- A text is refused for the leftmost lexeme that is refused, and for the same reason. -/
theorem tokenize_eq_error_iff_leftmost {text : String} {e : CalcError}
    : tokenize text = .error e
      ↔ ∃ before l after, scan (Text.lowerCase text.toList) = before ++ l :: after
          ∧ (∀ earlier ∈ before, ∀ e', ¬ Refused earlier e') ∧ Refused l e := by
  have formed := wellFormed_scan (Text.lowerCase text.toList)
  rw [tokenize_eq_error_iff, mapM_eq_error_iff]
  refine exists_congr fun before => exists_congr fun l => exists_congr fun after => ?_
  refine and_congr_right fun same => ?_
  rw [same, List.forall_mem_append, List.forall_mem_cons] at formed
  obtain ⟨earlier_formed, l_formed, -⟩ := formed
  refine and_congr (forall₂_congr fun earlier member => forall_congr' fun e' => ?_)
    (token_eq_error_iff l_formed)
  exact not_congr (token_eq_error_iff (earlier_formed earlier member))

/-- Of the items with a property one is the first. -/
theorem exists_first {α : Type} {P : α → Prop} {items : List α} (some : ∃ item ∈ items, P item)
    : ∃ before item after, items = before ++ item :: after ∧ (∀ earlier ∈ before, ¬ P earlier)
        ∧ P item := by
  classical
  obtain ⟨item, member, holds⟩ := some
  have found : (items.find? fun a => decide (P a)).isSome = true :=
    List.find?_isSome.mpr ⟨item, member, decide_eq_true holds⟩
  obtain ⟨first, found⟩ := Option.isSome_iff_exists.mp found
  obtain ⟨first_holds, before, after, same, fails⟩ := List.find?_eq_some_iff_append.mp found
  exact ⟨before, first, after, same, by simpa using fails, by simpa using first_holds⟩

/-- Scanning a text loses nothing but blanks and cuts it into runs that reach as far as they can:
its lexemes are the pieces of the only division there is. A text is refused exactly if one of its
lexemes is, and then the leftmost of these is reported with its text.
-/
theorem scan_divides_and_leftmost_refused
    : (∀ text : List Char,
        (scan text).flatMap chars = withoutBlanks text
        ∧ (∀ l ∈ scan text, l.WellFormed)
        ∧ (∃ lead segments, IsDivision text lead segments
            ∧ segments.map Segment.piece = (scan text).map chars)
        ∧ ∀ lead segments, IsDivision text lead segments
          → segments.map Segment.piece = (scan text).map chars)
      ∧ ∀ text : String,
        ((∃ e, tokenize text = .error e)
          ↔ ∃ l ∈ scan (Text.lowerCase text.toList), ∃ e, Refused l e)
        ∧ ∀ e, tokenize text = .error e
          ↔ ∃ before l after, scan (Text.lowerCase text.toList) = before ++ l :: after
              ∧ (∀ earlier ∈ before, ∀ e', ¬ Refused earlier e') ∧ Refused l e := by
  refine ⟨fun text => ⟨flatMap_chars_scan text, wellFormed_scan text, exists_isDivision text,
    fun lead segments division => division.map_piece⟩, fun text => ⟨?_, ?_⟩⟩
  · constructor
    · rintro ⟨e, failed⟩
      obtain ⟨before, l, after, same, -, refused⟩ := tokenize_eq_error_iff_leftmost.mp failed
      exact ⟨l, by simp [same], e, refused⟩
    · intro some
      obtain ⟨before, l, after, same, fails, e, refused⟩ := exists_first some
      refine ⟨e, tokenize_eq_error_iff_leftmost.mpr ⟨before, l, after, same, ?_, refused⟩⟩
      exact fun earlier member => not_exists.mp (fails earlier member)
  · exact fun e => tokenize_eq_error_iff_leftmost

end Calculator
