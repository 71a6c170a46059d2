import Calculator.Proofs.Infix.Depth
import Calculator.Proofs.Lexeme.Spelling
import Calculator.Proofs.Postfix.Enclosing

/-! Brackets around a whole text. They are two more lexemes, the passes over the tokens take them
for one group, and the conversion to postfix order drops them without a trace.
-/

namespace Calculator

--------------------------------------------------------------------------------
-- Characters and lexemes
--------------------------------------------------------------------------------

namespace Text

/-- A character that has no case, and where the search for a cased neighbour stops. -/
structure Delimits (c : Char) : Prop where
  uncased : isCased c = false
  seen : isCaseIgnorable c = false
  sigma : c ≠ 'Σ'
  lower : lowerChar c = [c]

theorem delimits_openBracket
    : Delimits '(' :=
  ⟨by decide +kernel, by decide +kernel, by decide, rfl⟩

theorem delimits_closeBracket
    : Delimits ')' :=
  ⟨by decide +kernel, by decide +kernel, by decide, rfl⟩

/-- A delimiter behind a text is not the first cased character of it. -/
theorem Delimits.startsCased_append {c : Char} (delimits : Delimits c) (text : List Char)
    : startsCased (text ++ [c]) = startsCased text := by
  induction text with
  | nil => simp [startsCased, delimits.uncased, delimits.seen]
  | cons first text ih =>
      unfold startsCased at ih ⊢
      by_cases ignorable : isCaseIgnorable first = true
      · simpa [ignorable] using ih
      · simp [ignorable]

/-- What delimits a text has no influence on its lower case. -/
theorem lowerFrom_delimited {first last : Char} (begins : Delimits first) (ends : Delimits last)
    (before text : List Char)
    : lowerFrom (before ++ [first]) (text ++ [last]) = lowerFrom before text ++ [last] := by
  induction text generalizing before with
  | nil => simp [lowerFrom, ends.sigma, ends.lower]
  | cons c text ih =>
      have behind := ih (c :: before)
      rw [List.cons_append] at behind
      simp only [List.cons_append, lowerFrom, begins.startsCased_append, ends.startsCased_append,
        behind, List.append_assoc]

theorem lowerCase_delimited {first last : Char} (begins : Delimits first) (ends : Delimits last)
    (text : List Char)
    : lowerCase (first :: text ++ [last]) = first :: lowerCase text ++ [last] := by
  have inside := lowerFrom_delimited begins ends [] text
  rw [List.nil_append] at inside
  simp [lowerCase, lowerFrom, begins.sigma, begins.lower, inside]

end Text

namespace Lexeme

/-- A mark is neither continued by what stands behind it nor does it continue anything. -/
theorem joins_mark {c : Char} (formed : (mark c).WellFormed) (other : Char)
    : joins c other = false ∧ joins other c = false := by
  obtain ⟨_, numeral, alpha⟩ := formed
  simp [joins, numeral, alpha]

theorem Spells.mark_append {text : List Char} {lexemes : List Lexeme} {c : Char}
    (formed : (mark c).WellFormed) (spells : Spells text lexemes)
    : Spells (c :: text) (.mark c :: lexemes) := by
  refine .lexeme formed ?_ spells
  rintro last ⟨⟩ next -
  exact (joins_mark formed next).1

/-- A mark may be put behind a spelling. Witness: induction on the spelling, since a mark joins no
lexeme in front of it.
-/
theorem Spells.append_mark {text : List Char} {lexemes : List Lexeme} {c : Char}
    (formed : (mark c).WellFormed) (spells : Spells text lexemes)
    : Spells (text ++ [c]) (lexemes ++ [.mark c]) := by
  induction spells with
  | nil => exact .mark_append formed .nil
  | blank blank _ ih => exact .blank blank ih
  | @lexeme l text lexemes l_formed ends rest ih =>
      rw [List.append_assoc]
      refine .lexeme l_formed (fun last isLast next isNext => ?_) ih
      cases text with
      | nil =>
          obtain rfl : c = next := by simpa using isNext
          exact (joins_mark formed last).2
      | cons first text => exact ends last isLast next isNext

end Lexeme

/-- The tokens of a text between brackets. Witness: the brackets are lexemes of their own, and any
failure is one of the lexemes between them.
-/
theorem lex_enclosed (text : String)
    : lex ("(" ++ text ++ ")")
      = (lex text).map fun tokens => .openBracket :: tokens ++ [.closeBracket] := by
  have opens : (Lexeme.mark '(').WellFormed := by decide
  have closes : (Lexeme.mark ')').WellFormed := by decide
  have spelled : Lexeme.Spells (Text.lowerCase text.toList) _ := Lexeme.spells_iff_scan.mpr rfl
  have scanned := Lexeme.scan_of_spells ((spelled.append_mark closes).mark_append opens)
  have opened : (Lexeme.mark '(').token = .ok .openBracket := rfl
  have closed : (Lexeme.mark ')').token = .ok .closeBracket := rfl
  have characters : ("(" ++ text ++ ")").toList = '(' :: text.toList ++ [')'] := by
    simp
  rw [lex, lex, characters,
    Text.lowerCase_delimited Text.delimits_openBracket Text.delimits_closeBracket,
    List.cons_append, scanned]
  simp only [Lexeme.tokens, List.mapM_cons, List.mapM_append, opened, closed]
  cases (Lexeme.scan (Text.lowerCase text.toList)).mapM Lexeme.token with
  | error e => rfl
  | ok tokens => rfl

--------------------------------------------------------------------------------
-- Tokens
--------------------------------------------------------------------------------

namespace Infix

theorem multiplied_enclosed (tokens : List Token)
    : multiplied (.openBracket :: tokens ++ [.closeBracket])
      = .openBracket :: multiplied tokens ++ [.closeBracket] := by
  rw [List.cons_append, multiplied_openBracket, multiplied_append_of_fits (by simp)]
  rfl

theorem powersGrouped_enclosed {separators : Bool} {tokens : List Token}
    (nested : Nested separators tokens)
    : powersGrouped (.openBracket :: tokens ++ [.closeBracket])
      = .openBracket :: powersGrouped tokens ++ [.closeBracket] := by
  rw [powersGrouped, Layout.ofTokens_enclosed nested]
  simp [PowerReading.ofLayout, PowerReading.withBase, Layout.append, powersGrouped]

theorem signsRewritten_enclosed {separators : Bool} {tokens : List Token}
    (nested : Nested separators tokens)
    : signsRewritten (.openBracket :: tokens ++ [.closeBracket])
      = .openBracket :: signsRewritten tokens ++ [.closeBracket] := by
  rw [signsRewritten, Layout.ofTokens_enclosed nested]
  simp [SignReading.ofLayout, Layout.append, signsRewritten]

/-- All passes together keep how deep tokens are inside brackets. -/
theorem sameDepths_explicit (tokens : List Token)
    : SameDepths (explicit tokens) tokens :=
  (sameDepths_signsRewritten _).trans
    ((sameDepths_powersGrouped _).trans (sameDepths_multiplied tokens))

/-- The passes take brackets around nested tokens for a single group. -/
theorem explicit_enclosed {separators : Bool} {tokens : List Token}
    (nested : Nested separators tokens)
    : explicit (.openBracket :: tokens ++ [.closeBracket])
      = .openBracket :: explicit tokens ++ [.closeBracket] := by
  have multiplied_nested := ((sameDepths_multiplied tokens).nested_iff separators).mpr nested
  have grouped_nested :=
    ((sameDepths_powersGrouped (multiplied tokens)).nested_iff separators).mpr multiplied_nested
  rw [explicit, multiplied_enclosed, powersGrouped_enclosed multiplied_nested,
    signsRewritten_enclosed grouped_nested, explicit]

end Infix

/-- The tokens of a text, without the lexemes that are no tokens. -/
def legible (text : String) : List Token :=
  (Lexeme.scan (Text.lowerCase text.toList)).filterMap (·.token.toOption)

/-- Where every lexeme is a token, none is left out. -/
theorem legible_of_lex {text : String} {tokens : List Token} (lexed : lex text = .ok tokens)
    : legible text = tokens := by
  unfold lex Lexeme.tokens at lexed
  unfold legible
  generalize Lexeme.scan (Text.lowerCase text.toList) = lexemes at lexed ⊢
  induction lexemes generalizing tokens with
  | nil =>
      cases lexed
      rfl
  | cons l rest ih =>
      rw [List.mapM_cons] at lexed
      obtain ⟨t, first, lexed⟩ := bind_eq_ok_iff.mp lexed
      obtain ⟨later, others, same⟩ := bind_eq_ok_iff.mp lexed
      cases same
      rw [List.filterMap_cons, first, ih others]
      rfl

/-- Brackets around a whole text change neither its answer or error nor the state behind it, as long
as the brackets of the text are balanced and no separator stands outside all of them. Witness: only
the conversion to postfix order meets the brackets, and it drops them.
-/
theorem solve_enclosed {text : String} (enclosable : Infix.Enclosable (legible text)) (s : State)
    : solve ("(" ++ text ++ ")") s = solve text s := by
  unfold solve tokenize
  rw [lex_enclosed]
  cases lexed : lex text with
  | error e => rfl
  | ok tokens =>
      rw [legible_of_lex lexed] at enclosable
      have explicit_h := (Infix.sameDepths_explicit tokens).enclosable_iff.mpr enclosable
      simp only [Except.map, ok_bind, pure_eq_ok, run,
        Infix.explicit_enclosed (Infix.nested_iff_enclosable.mpr enclosable),
        Postfix.ofTokens_enclosed explicit_h]

/-- Witness: a text that switches the mode, with a sign and a multiplication that is not written. -/
theorem solve_enclosed_toggled
    : let text := "-(TOG - 3) (mode / 2)"
      Infix.Enclosable (legible text) ∧ solve ("(" ++ text ++ ")") {} = solve text {}
        ∧ (solve ("(" ++ text ++ ")") {}).result = .ok 1
        ∧ (solve ("(" ++ text ++ ")") {}).state.mode = .degree := by
  intro text
  have enclosable : Infix.Enclosable (legible text) := by decide +kernel
  have same := solve_enclosed enclosable {}
  have answered : (solve text {}).result = .ok 1 := by decide +kernel
  have switched : (solve text {}).state.mode = .degree := by decide +kernel
  exact ⟨enclosable, same, same ▸ answered, same ▸ switched⟩

end Calculator
