import Calculator.Lexeme
import Calculator.Proofs.Sequencing

/-! Which lexemes name functions. A function is named by its word only, so a text calls each
function as often as it holds the word.
-/

namespace Calculator

/-- The table of names finds every symbol. -/
theorem Symbol.ofName?_name (symbol : Symbol)
    : ofName? symbol.name = some symbol := by
  cases symbol with
  | operator op => cases op <;> rfl
  | constant c => cases c <;> rfl
  | function f =>
      cases f with
      | nullary f => cases f <;> rfl
      | power => rfl
      | unary f =>
          cases f with
          | angle f | inverse f => cases f <;> rfl
          | _ => rfl

theorem Symbol.ofName?_eq_some_iff {name : String} {symbol : Symbol}
    : ofName? name = some symbol ↔ symbol.name = name := by
  constructor
  · intro found
    simpa using List.find?_some found
  · intro same
    exact same ▸ ofName?_name symbol

/-- The names of functions are words. -/
theorem Function.one_lt_length_name (f : Function)
    : 1 < f.name.length := by
  cases f with
  | nullary f => cases f <;> decide
  | power => decide
  | unary f =>
      cases f with
      | angle f | inverse f => cases f <;> decide
      | _ => decide

/-- The names of the functions are words. -/
theorem Function.isAlpha_of_mem_name (f : Function)
    : ∀ c ∈ f.name.toList, c.isAlpha = true := by
  cases f with
  | nullary f => cases f <;> simp [name, ModeFunction.name]
  | power => simp [name]
  | unary f =>
      cases f with
      | angle f | inverse f => cases f <;> simp [name, UnaryFunction.name]
      | _ => simp [name, UnaryFunction.name]

theorem Constant.isAlpha_of_mem_name (c : Constant)
    : ∀ a ∈ c.name.toList, a.isAlpha = true := by
  cases c <;> simp [name]

/-- A symbol with a longer name than a bracket is found by its name only. -/
theorem Token.ofText?_eq_ofSymbol_iff {text : String} {symbol : Symbol}
    (long : 1 < symbol.name.length)
    : ofText? text = some (ofSymbol symbol) ↔ symbol.name = text := by
  have other (mark : String) (short : mark.length = 1) : symbol.name ≠ mark := by
    rintro same
    rw [same, short] at long
    exact absurd long (Nat.lt_irrefl 1)
  have injective : Function.Injective ofSymbol := by
    intro a b same
    cases a <;> cases b <;> cases same <;> rfl
  unfold ofText?
  split
  · rename_i bracket
    subst bracket
    simp only [other "(" rfl, iff_false]
    cases symbol <;> simp [ofSymbol]
  · split
    · rename_i bracket
      subst bracket
      simp only [other ")" rfl, iff_false]
      cases symbol <;> simp [ofSymbol]
    · split
      · rename_i mark
        subst mark
        simp only [other "," rfl, iff_false]
        cases symbol <;> simp [ofSymbol]
      · rw [Option.map_eq_some_iff]
        simp only [injective.eq_iff, exists_eq_right, Symbol.ofName?_eq_some_iff]

namespace Lexeme

/-- Whatever is no numeral is read by its text. -/
theorem token_eq_ok_iff {l : Lexeme} {t : Token} (other : ∀ run, l ≠ .numeral run)
    : l.token = .ok t ↔ Token.ofText? (.ofList l.chars) = some t := by
  cases l with
  | numeral run => exact absurd rfl (other run)
  | word run =>
      cases found : Token.ofText? (.ofList (word run).chars) with
      | none => simp [token, found]
      | some u => simp [token, found]
  | mark c =>
      cases found : Token.ofText? (.ofList (mark c).chars) with
      | none => simp [token, found]
      | some u => simp [token, found]

/-- A lexeme is read as a symbol with a long name exactly if it is the word of that name. -/
theorem token_eq_ofSymbol_iff {l : Lexeme} (symbol : Symbol) (long : 1 < symbol.name.length)
    : l.token = .ok (.ofSymbol symbol) ↔ l = .word symbol.name.toList := by
  cases l with
  | numeral run =>
      simp only [token, numberToken, reduceCtorEq, iff_false]
      cases symbol <;>
        (split
         · simp
         · split <;> simp [Token.ofSymbol])
  | word run =>
      rw [token_eq_ok_iff (by simp), Token.ofText?_eq_ofSymbol_iff long]
      constructor
      · intro same
        simp [same, chars]
      · intro same
        cases same
        simp [chars]
  | mark c =>
      rw [token_eq_ok_iff (by simp), Token.ofText?_eq_ofSymbol_iff long]
      simp only [reduceCtorEq, iff_false]
      intro same
      rw [same] at long
      simp [chars] at long

theorem token_eq_function_iff {l : Lexeme} {f : Function}
    : l.token = .ok (.function f) ↔ l = .word f.name.toList :=
  token_eq_ofSymbol_iff (.function f) f.one_lt_length_name

/-- Reading lexemes as tokens keeps how often a function is named. Witness: induction on the
lexemes; only its word is read as a function.
-/
theorem count_function_tokens {lexemes : List Lexeme} {ts : List Token} (f : Function)
    (read : tokens lexemes = .ok ts)
    : ts.count (.function f) = lexemes.count (.word f.name.toList) := by
  induction lexemes generalizing ts with
  | nil =>
      cases read
      rfl
  | cons l rest ih =>
      rw [tokens, List.mapM_cons] at read
      obtain ⟨t, first, read⟩ := bind_eq_ok_iff.mp read
      obtain ⟨later, others, same⟩ := bind_eq_ok_iff.mp read
      cases same
      have named : t = .function f ↔ l = .word f.name.toList := by
        rw [← token_eq_function_iff, first]
        simp
      rw [List.count_cons, List.count_cons, ih others]
      simp [named]

end Lexeme

end Calculator
