import Calculator.Proofs.Infix.Separation
import Calculator.Proofs.Infix.Unsigned
import Calculator.Proofs.Postfix.Operand
import Calculator.Proofs.Sentence.Conversion

/-! Two ways to bind powers. The brackets around powers say what the precedence of the power sign
says anyway: with them or without, a token list converts to the same postfix order, or fails with
the same error. Only a sign in an exponent needs the brackets.
-/

namespace Calculator.Postfix

open Infix

namespace Converter

theorem operand_of_isPrimary (s : State) {l : Layout} (primary : l.IsPrimary)
    : Operand s l.tokens := by
  cases primary with
  | value value => exact operand_value s value
  | bare f => exact operand_bare s f
  | group callee closed => exact operand_group s callee closed

end Converter

/-- Behind tokens that do not end with a function an expression may begin. -/
theorem ready_of_run {before : List Token} {s : State} {c : Converter}
    (run : before.foldlM (Converter.pushIn s) {} = .ok c)
    (alone : ∀ f, before.getLast? ≠ some (.function f))
    : c.Ready := by
  have mirrors := mirrors_of_run run
  have last (f : Function) : c.last ≠ some (.function f) := by
    rw [mirrors.last]
    exact alone f
  refine ⟨last, fun f waits => ?_⟩
  obtain ⟨stack, top⟩ := List.head?_eq_some_iff.mp waits
  have levels := mirrors.levels last
  rw [top] at levels
  cases levels

/-- Anywhere in a token list brackets around a power change nothing, unless a function is in front
of them or another power follows.
-/
theorem ofTokens_powerGrouped {s : State} {base exponent : List Token}
    (base_h : Converter.Operand s base) (exponent_h : Converter.Operand s exponent)
    {before after : List Token} (alone : ∀ f, before.getLast? ≠ some (.function f))
    (behind : Fits .closeBracket after) (other : after.head? ≠ some (.operator .pow))
    : ofTokens
        (before
          ++ (.openBracket :: (base ++ .operator .pow :: exponent) ++ .closeBracket :: after)) s
      = ofTokens (before ++ (base ++ .operator .pow :: exponent ++ after)) s := by
  unfold ofTokens
  rw [List.foldlM_append, List.foldlM_append, bind_assoc, bind_assoc]
  cases run : before.foldlM (Converter.pushIn s) {} with
  | error e => rfl
  | ok c =>
      have ready := ready_of_run run alone
      exact base_h.foldlM_powerGrouped exponent_h ready behind other

--------------------------------------------------------------------------------
-- Layouts in their surroundings
--------------------------------------------------------------------------------

/-- The tokens in front of a layout let its first operand stand there: no function in front takes
it for its arguments, and no multiplication sign is missing.
-/
def Precedes (before : List Token) (l : Layout) : Prop :=
  ∀ f, before.getLast? = some (.function f) → Fits (.function f) l.tokens ∧ l.startsFree = false

theorem precedes_append_of_ne {t : Token} (other : t.isFunction = false) (before : List Token)
    (l : Layout)
    : Precedes (before ++ [t]) l := by
  intro f last
  obtain rfl : t = .function f := by simpa using last
  cases other

/-- Behind a token the rest of its layout may stand. -/
theorem precedes_append_token {t : Token} {rest : Layout} (joined : (Layout.token t rest).Joined)
    (fits : Fits t rest.tokens) (before : List Token)
    : Precedes (before ++ [t]) rest := by
  intro f last
  obtain rfl : t = .function f := by simpa using last
  exact ⟨fits, joined.1 rfl⟩

/-- Where an operand or a group begins, no function is directly in front. -/
theorem Precedes.alone_of_token {before : List Token} {t : Token} {rest : Layout}
    (precedes : Precedes before (.token t rest)) (operand : Layout.isOperand t rest = true)
    (f : Function)
    : before.getLast? ≠ some (.function f) := by
  intro last
  have fit : lacksSign (.function f) t = false := by simpa using (precedes f last).1
  cases t with
  | number x | constant x | function g => cases fit
  | operator op | openBracket | closeBracket | separator => cases operand

/-- In front of a group that a layout begins with, there is no function. -/
theorem Precedes.alone_of_group {before : List Token} {callee : Option Function}
    {inner rest : Layout} (precedes : Precedes before (.group callee inner rest)) (f : Function)
    : before.getLast? ≠ some (.function f) := by
  intro last
  obtain ⟨fits, free⟩ := precedes f last
  cases callee with
  | none => cases free
  | some g =>
      have fit : lacksSign (.function f) (.function g) = false := by simpa using fits
      cases fit

/-- One layout converts like another between the same tokens. -/
def Agrees (s : State) (before after : List Token) (l m : Layout) : Prop :=
  ofTokens (before ++ l.tokens ++ after) s = ofTokens (before ++ m.tokens ++ after) s

namespace Agrees

variable {s : State} {before after : List Token} {l m n : Layout}

theorem trans (first : Agrees s before after l m) (second : Agrees s before after m n)
    : Agrees s before after l n :=
  Eq.trans first second

theorem token {t : Token} (agrees : Agrees s (before ++ [t]) after l m)
    : Agrees s before after (.token t l) (.token t m) := by
  simpa [Agrees] using agrees

/-- Behind a group. -/
theorem behind {callee : Option Function} {inner : Layout}
    (agrees
      : Agrees s
          (before ++ (callee.map Token.function).toList ++ .openBracket :: inner.tokens
            ++ [.closeBracket])
          after l m)
    : Agrees s before after (.group callee inner l) (.group callee inner m) := by
  simpa [Agrees] using agrees

/-- Inside a group. -/
theorem inside {callee : Option Function} {rest : Layout}
    (agrees
      : Agrees s (before ++ (callee.map Token.function).toList ++ [.openBracket])
          (.closeBracket :: (rest.tokens ++ after)) l m)
    : Agrees s before after (.group callee l rest) (.group callee m rest) := by
  simpa [Agrees] using agrees

end Agrees

--------------------------------------------------------------------------------
-- Brackets around all powers
--------------------------------------------------------------------------------

/-- What is left of a reading and the bracket behind it, if there is one, end the operand that the
reading was cut from.
-/
theorem fits_append {rest after : List Token} (fits : Fits .closeBracket rest)
    (closes : ∀ t ∈ after.head?, t = .closeBracket)
    : Fits .closeBracket (rest ++ after) := by
  cases rest with
  | nil =>
      intro t head
      rw [closes t head]
      rfl
  | cons t later => simpa using fits

/-- No power sign comes first where a rest without one is followed by the end or by a closing
bracket.
-/
theorem head?_append_ne_power {rest after : List Token}
    (ends : rest.head? ≠ some (.operator .pow)) (closes : ∀ t ∈ after.head?, t = .closeBracket)
    : (rest ++ after).head? ≠ some (.operator .pow) := by
  cases rest with
  | nil =>
      intro head
      cases closes _ head
  | cons t later => exact ends

/-- A base in front of a reading may be bracketed with an exponent, and the conversion is the same.
-/
theorem agrees_withBase (s : State) {base : Layout → Layout} {read before after : List Token}
    {r : PowerReading} (primary : (base .nil).IsPrimary)
    (tokens : ∀ l, (base l).tokens = (base .nil).tokens ++ l.tokens)
    (alone : ∀ f, before.getLast? ≠ some (.function f)) (plain : PowerReading.Plain read r)
    (cut : r.Cut) (closes : ∀ t ∈ after.head?, t = .closeBracket)
    : Agrees s before after (r.withBase base).whole (base r.whole) := by
  unfold Agrees
  cases plain with
  | @power _ exponent rest exponent_primary ends =>
      have grouped := ofTokens_powerGrouped (Converter.operand_of_isPrimary s primary)
        (Converter.operand_of_isPrimary s exponent_primary) alone (fits_append cut closes)
        (head?_append_ne_power ends closes)
      simpa [PowerReading.withBase, Layout.append, tokens (.token _ _)] using grouped
  | @primary _ chain rest _ _ =>
      simp [PowerReading.withBase, tokens (chain.append rest)]
  | @signed _ t chain rest _ _ =>
      simp [PowerReading.withBase, tokens ((Layout.token t chain).append rest)]
  | dangling rest => simp [PowerReading.withBase]
  | @other _ whole _ => simp [PowerReading.withBase, tokens whole]

/-- Bracketing the powers of a layout does not change the conversion of the list that it is in,
where another bracket closes behind it or nothing follows. Witness: induction on the layout; its
first operand gets its brackets, then those behind it do, and those inside it.
-/
theorem agrees_ofLayout (s : State) {l : Layout} (joined : l.Joined) (matched : l.Matched)
    (separated : Separated l.tokens) (unsigned : UnsignedPowers l.tokens)
    {before after : List Token} (precedes : Precedes before l)
    (closes : ∀ t ∈ after.head?, t = .closeBracket)
    : Agrees s before after (PowerReading.ofLayout l).whole l := by
  induction l generalizing before after with
  | nil => rfl
  | group callee inner rest inner_ih rest_ih =>
      obtain ⟨inside, _, behind⟩ := separated_group.mp separated
      obtain ⟨inside_unsigned, behind_unsigned⟩ := unsigned.of_group
      have plain := PowerReading.plain_ofLayout matched.2 behind_unsigned
      have cut := (PowerReading.keeps_ofLayout joined.2 behind).cut
      have inner_closed := PowerReading.closed_ofLayout matched.1
      have based := agrees_withBase s (.group callee inner_closed) (by simp)
        precedes.alone_of_group plain cut closes
      have closed := precedes_append_of_ne (rfl : Token.closeBracket.isFunction = false)
        (before ++ (callee.map Token.function).toList
          ++ .openBracket :: (PowerReading.ofLayout inner).whole.tokens) rest
      have rest_agrees := rest_ih joined.2 matched.2 behind behind_unsigned closed closes
      have opened := precedes_append_of_ne (rfl : Token.openBracket.isFunction = false)
        (before ++ (callee.map Token.function).toList) inner
      have inner_agrees := @inner_ih joined.1 matched.1.matched inside inside_unsigned _
        (.closeBracket :: (rest.tokens ++ after)) opened (by simp)
      exact based.trans (rest_agrees.behind.trans inner_agrees.inside)
  | token t rest ih =>
      obtain ⟨fits, behind⟩ := separated_cons.mp (by simpa using separated)
      have rest_unsigned : UnsignedPowers rest.tokens := unsigned.tail
      have front := (ih joined.2 matched behind rest_unsigned
        (precedes_append_token joined fits before) closes).token
      unfold PowerReading.ofLayout
      split
      · rename_i operand
        have primary := Layout.isPrimary_of_isOperand operand
        have plain := @PowerReading.plain_ofLayout rest matched rest_unsigned
        have cut := (PowerReading.keeps_ofLayout joined.2 behind).cut
        have based := agrees_withBase s primary (fun l => rfl) (precedes.alone_of_token operand)
          plain cut closes
        exact based.trans front
      · split
        · rename_i power
          subst power
          rw [PowerReading.whole_withPower]
          exact front
        · split
          · rw [PowerReading.whole_withSign]
            exact front
          · exact front

/-- Where no multiplication sign is missing and no power has a signed exponent, the brackets
around powers change neither the postfix order nor the error of any token list.
-/
theorem ofTokens_powersGrouped {tokens : List Token} (separated : Separated tokens)
    (unsigned : UnsignedPowers tokens) (s : State)
    : ofTokens (powersGrouped tokens) s = ofTokens tokens s := by
  have joined := Layout.joined_ofTokens tokens
  have matched := Layout.matched_ofTokens tokens
  rw [← Layout.tokens_ofTokens tokens] at separated unsigned
  have grouped := @agrees_ofLayout s _ joined matched separated unsigned [] []
    (fun f last => nomatch last) (fun t head => nomatch head)
  simpa [Agrees, powersGrouped] using grouped

/-- Witness: a chain of powers, in front of a bracket without a partner. -/
theorem ofTokens_powersGrouped_unmatched
    : powersGrouped
        [.constant .pi, .operator .pow, .function .power, .operator .pow, .constant .e, .closeBracket]
      = [.openBracket, .constant .pi, .operator .pow, .openBracket, .function .power,
        .operator .pow, .constant .e, .closeBracket, .closeBracket, .closeBracket]
      ∧ ofTokens
          (powersGrouped
            [.constant .pi, .operator .pow, .function .power, .operator .pow, .constant .e,
              .closeBracket]) {}
        = .error (.missingArguments .power) := by
  refine ⟨rfl, (ofTokens_powersGrouped ?_ ?_ {}).trans rfl⟩
  · simp [Separated, lacksSign]
  · simp [UnsignedPowers, Token.isSign]

end Calculator.Postfix
