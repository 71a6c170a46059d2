import Calculator.Proofs.Infix.Expectation
import Calculator.Proofs.Sentence.Evaluation

/-! The operands of signs. A sentence lacks no operand, and so the tokens of a text that has an
answer lack none either. Pluses alone between the brackets of a function without arguments are the
only exception: without them the brackets are empty, as they should be.
-/

namespace Calculator

open Infix Infix.Expectation
open Infix.SignReading (allowsSign allowsSign_of_isSign)

--------------------------------------------------------------------------------
-- Sentences lack no operand
--------------------------------------------------------------------------------

/-- The tokens may be read anywhere, and behind them no operand is awaited. -/
def Completes (tokens : List Token) : Prop :=
  ∀ now : Expectation, ∃ next, now.readAll tokens = some next ∧ next.awaitsOperand = false

namespace Completes

variable {left right : List Token} {t : Token}

theorem singleton (starts : t.startsOperand = true) (closed : allowsSign t = false)
    : Completes [t] := by
  intro now
  obtain ⟨next, reads, -⟩ := read_of_starts now (t := t) (by rw [starts, Bool.true_or])
  exact ⟨next, readAll_cons_eq_some.mpr ⟨next, reads, rfl⟩,
    (awaitsOperand_of_read reads).trans closed⟩

/-- The beginning of an operand may stand in front. -/
theorem cons (complete : Completes right) (starts : t.startsOperand = true)
    : Completes (t :: right) := by
  intro now
  obtain ⟨between, first, -⟩ := read_of_starts now (t := t) (by rw [starts, Bool.true_or])
  obtain ⟨next, reads, closed⟩ := complete between
  exact ⟨next, readAll_cons_eq_some.mpr ⟨between, first, reads⟩, closed⟩

/-- Any token may stand between. -/
theorem append_cons (complete : Completes left) (t : Token) (behind : Completes right)
    : Completes (left ++ t :: right) := by
  intro now
  obtain ⟨between, front, closed⟩ := complete now
  obtain ⟨further, reads⟩ := exists_read_of_closed closed t
  obtain ⟨next, rest, closed⟩ := behind further
  exact ⟨next, readAll_append_eq_some.mpr
    ⟨between, front, readAll_cons_eq_some.mpr ⟨further, reads, rest⟩⟩, closed⟩

/-- Brackets may stand around. -/
theorem bracketed (complete : Completes left)
    : Completes (.openBracket :: left ++ [.closeBracket]) := by
  have closing : Completes (left ++ [.closeBracket]) := by
    intro now
    obtain ⟨between, front, closed⟩ := complete now
    obtain ⟨next, reads⟩ := exists_read_of_closed closed .closeBracket
    exact ⟨next, readAll_concat_eq_some.mpr ⟨between, front, reads⟩, awaitsOperand_of_read reads⟩
  exact closing.cons rfl

/-- A function without arguments may have brackets. -/
theorem modeCall (f : ModeFunction)
    : Completes [.function (.nullary f), .openBracket, .closeBracket] := by
  intro now
  cases now <;> exact ⟨anything, rfl, rfl⟩

end Completes

mutual

/-- Behind an item no operand is awaited. Witness: one case for each form of an item. -/
theorem IsItem.completes {w : List Token}
    : IsItem w → Completes w
  | .number _ | .constant _ | .bare _ => .singleton rfl rfl
  | .modeCall f => .modeCall f
  | .call _ argument => argument.completes.bracketed.cons rfl
  | .powerCall base exponent =>
      (base.completes.append_cons .separator exponent.completes).bracketed.cons rfl
  | .bracketed inner => inner.completes.bracketed

theorem IsSentence.completes {w : List Token}
    : IsSentence w → Completes w
  | .item item => item.completes
  | .operation op left right => left.completes.append_cons (.operator op) right.completes

end

--------------------------------------------------------------------------------
-- Reading signs
--------------------------------------------------------------------------------

/-- Whether tokens begin with an operand behind any signs. -/
def StartsSignedOperand (tokens : List Token) : Prop :=
  ∃ first, (tokens.dropWhile Token.isSign).head? = some first ∧ first.startsOperand = true

/-- A plus between the tokens `before` and `after` is alone, or among pluses only, between the
brackets of a function without arguments.
-/
def IsLonePlus (before : List Token) (sign : Token) (after : List Token) : Prop :=
  sign = .operator .add
    ∧ ∃ front f m n rest,
        before = front ++ .function (.nullary f) :: .openBracket :: List.replicate m (.operator .add)
          ∧ after = List.replicate n (.operator .add) ++ .closeBracket :: rest

/-- What is behind a lone plus is no operand. -/
theorem IsLonePlus.not_startsSignedOperand {before after : List Token} {sign : Token}
    (lone : IsLonePlus before sign after)
    : ¬ StartsSignedOperand after := by
  obtain ⟨_, _, _, _, n, rest, _, rfl⟩ := lone
  rintro ⟨first, head, starts⟩
  have pluses : ∀ t ∈ List.replicate n (Token.operator .add), t.isSign = true := by
    intro t member
    rw [List.eq_of_mem_replicate member]
    rfl
  rw [List.dropWhile_append_of_pos pluses] at head
  cases head
  cases starts

namespace Infix.Expectation

variable {now next : Expectation} {t : Token}

/-- Where an operand is awaited there is an operand, a sign that keeps it awaited, or the end of
empty brackets.
-/
theorem read_cases (awaits : now.awaitsOperand = true) (reads : now.read t = some next)
    : t.isSign = false ∧ t.startsOperand = true
      ∨ t.isSign = true ∧ next = operand
      ∨ now = arguments ∧ t = .operator .add ∧ next = arguments
      ∨ now = arguments ∧ t = .closeBracket := by
  unfold read at reads
  split at reads
  · cases awaits
  · cases reads
    exact .inr (.inr (.inl ⟨rfl, rfl, rfl⟩))
  · exact .inr (.inr (.inr ⟨rfl, rfl⟩))
  · split at reads
    · cases reads
    · rename_i starts
      cases reads
      rw [awaits, Bool.true_and, Bool.not_eq_true, Bool.not_eq_false', Bool.or_eq_true] at starts
      cases sign : t.isSign with
      | true =>
          cases t with
          | operator op => exact .inr (.inl ⟨rfl, rfl⟩)
          | _ => cases sign
      | false => exact .inl ⟨rfl, starts.resolve_right (by simp [sign])⟩

/-- Where an operand is awaited it comes behind its signs, unless empty brackets are closed. -/
theorem startsSignedOperand_or_closes {tokens : List Token} (awaits : now.awaitsOperand = true)
    (reads : now.readAll tokens = some next) (complete : next.awaitsOperand = false)
    : StartsSignedOperand tokens
      ∨ now = arguments
        ∧ ∃ n rest, tokens = List.replicate n (.operator .add) ++ .closeBracket :: rest := by
  induction tokens generalizing now with
  | nil =>
      cases reads
      rw [awaits] at complete
      cases complete
  | cons t rest ih =>
      obtain ⟨between, first, reads⟩ := readAll_cons_eq_some.mp reads
      have behind_sign (sign : t.isSign = true) (starts : StartsSignedOperand rest)
          : StartsSignedOperand (t :: rest) := by
        rwa [StartsSignedOperand, List.dropWhile_cons_of_pos sign]
      rcases read_cases awaits first with
        ⟨unsigned, starts⟩ | ⟨sign, rfl⟩ | ⟨rfl, rfl, rfl⟩ | ⟨rfl, rfl⟩
      · left
        exact ⟨t, by rw [List.dropWhile_cons_of_neg (by simp [unsigned])]; rfl, starts⟩
      · rcases ih rfl reads with starts | ⟨other, _⟩
        · exact .inl (behind_sign sign starts)
        · cases other
      · rcases ih rfl reads with starts | ⟨_, n, later, rfl⟩
        · exact .inl (behind_sign rfl starts)
        · exact .inr ⟨rfl, n + 1, later, rfl⟩
      · exact .inr ⟨rfl, 0, rest, rfl⟩

/-- The brackets of a function without arguments are expected only behind its name. -/
theorem eq_function_of_read_called (reads : now.read t = some called)
    : ∃ f, t = .function (.nullary f) := by
  unfold read at reads
  split at reads
  · cases reads
  · cases reads
  · cases reads
  · split at reads
    · cases reads
    · cases t with
      | function f =>
          cases f with
          | nullary f => exact ⟨f, rfl⟩
          | _ => cases reads
      | _ => cases reads

/-- The end of such brackets is expected behind the opening one, and behind each plus that follows
it.
-/
theorem cases_of_read_arguments (reads : now.read t = some arguments)
    : now = called ∧ t = .openBracket ∨ now = arguments ∧ t = .operator .add := by
  unfold read at reads
  split at reads
  · exact .inl ⟨rfl, rfl⟩
  · exact .inr ⟨rfl, rfl⟩
  · cases reads
  · split at reads
    · cases reads
    · cases t with
      | function f => cases f <;> cases reads
      | _ => cases reads

/-- Arguments are expected behind the bracket of a function without arguments, and behind further
pluses.
-/
theorem exists_call_of_readAll {tokens : List Token} (reads : operand.readAll tokens = some arguments)
    : ∃ front f n,
        tokens
          = front ++ .function (.nullary f) :: .openBracket :: List.replicate n (.operator .add) := by
  induction tokens using List.reverseRecOn with
  | nil => cases reads
  | append_singleton tokens t ih =>
      obtain ⟨between, front, last⟩ := readAll_concat_eq_some.mp reads
      rcases cases_of_read_arguments last with ⟨rfl, rfl⟩ | ⟨rfl, rfl⟩
      · induction tokens using List.reverseRecOn with
        | nil => cases front
        | append_singleton tokens u _ =>
            obtain ⟨_, _, called⟩ := readAll_concat_eq_some.mp front
            obtain ⟨f, rfl⟩ := eq_function_of_read_called called
            exact ⟨tokens, f, 0, by simp⟩
      · obtain ⟨earlier, f, n, rfl⟩ := ih front
        exact ⟨earlier, f, n + 1, by simp [List.replicate_succ']⟩

/-- In the position of a sign an operand is awaited. Witness: the token in front of it decides both.
-/
theorem awaitsOperand_of_signPosition {before after : List Token}
    (position : signPosition (before ++ after) before.length = true)
    (reads : operand.readAll before = some now)
    : now.awaitsOperand = true := by
  induction before using List.reverseRecOn with
  | nil =>
      cases reads
      rfl
  | append_singleton front last _ =>
      obtain ⟨between, _, reads⟩ := readAll_concat_eq_some.mp reads
      rw [awaitsOperand_of_read reads]
      simpa [signPosition] using position

/-- A sign that is read has an operand, or it is a lone plus. -/
theorem startsSignedOperand_or_isLonePlus {before after : List Token} {sign : Token}
    (isSign : sign.isSign = true)
    (position : signPosition (before ++ sign :: after) before.length = true)
    (reads : operand.readAll (before ++ sign :: after) = some next)
    (complete : next.awaitsOperand = false)
    : StartsSignedOperand after ∨ IsLonePlus before sign after := by
  obtain ⟨between, front, reads⟩ := readAll_append_eq_some.mp reads
  have awaits := awaitsOperand_of_signPosition position front
  obtain ⟨further, first, reads⟩ := readAll_cons_eq_some.mp reads
  have still : further.awaitsOperand = true :=
    (awaitsOperand_of_read first).trans (allowsSign_of_isSign isSign)
  rcases startsSignedOperand_or_closes still reads complete with starts | ⟨rfl, n, rest, rfl⟩
  · exact .inl starts
  · rcases cases_of_read_arguments first with ⟨rfl, _⟩ | ⟨rfl, rfl⟩
    · cases awaits
    · obtain ⟨earlier, f, m, rfl⟩ := exists_call_of_readAll front
      exact .inr ⟨rfl, earlier, f, m, n, rest, rfl, rfl⟩

end Infix.Expectation

--------------------------------------------------------------------------------
-- Texts that have an answer
--------------------------------------------------------------------------------

/-- A text that has an answer stands for a sentence. -/
theorem exists_isSentence_of_solve {text : String} {s : State} {x : Float}
    (answered : (solve text s).result = .ok x)
    : ∃ tokens, lex text = .ok tokens ∧ IsSentence (explicit tokens) := by
  cases ran : tokenize text >>= fun tokens => run tokens s with
  | error e =>
      rw [solve, ran] at answered
      cases answered
  | ok pair =>
      obtain ⟨tokens, tokenized, ran⟩ := bind_eq_ok_iff.mp ran
      obtain ⟨written, lexed, same⟩ := bind_eq_ok_iff.mp tokenized
      cases same
      obtain ⟨output, converted, evaluated⟩ := bind_eq_ok_iff.mp ran
      exact ⟨written, lexed, isSentence_of_evaluate (separated_explicit written) converted evaluated⟩

/-- In a text that has an answer the signs without an operand are exactly the lone pluses: pluses
alone between the brackets of a function without arguments. Witness: what the passes make of the
tokens is a sentence, in which no operand is missing.
-/
theorem missing_operand_iff_isLonePlus {text : String} {s : State} {x : Float}
    (answered : (solve text s).result = .ok x)
    : ∃ tokens, lex text = .ok tokens
        ∧ ∀ before sign after, tokens = before ++ sign :: after → sign.isSign = true
          → signPosition tokens before.length = true
          → (¬ StartsSignedOperand after ↔ IsLonePlus before sign after) := by
  obtain ⟨tokens, lexed, sentence⟩ := exists_isSentence_of_solve answered
  refine ⟨tokens, lexed, ?_⟩
  rintro before sign after rfl isSign position
  refine ⟨fun missing => ?_, IsLonePlus.not_startsSignedOperand⟩
  obtain ⟨last, reads, closed⟩ := sentence.completes operand
  obtain ⟨final, reads, within⟩ := relaxes_explicit _ operand last rfl reads
  exact (startsSignedOperand_or_isLonePlus isSign position reads
    (within.awaitsOperand closed)).resolve_left missing

/-- A plus without an operand in a text that has an answer. -/
theorem missing_operand_of_mode
    : (solve "mode(+)" {}).result = .ok 0
      ∧ lex "mode(+)"
        = .ok [.function (.nullary .current), .openBracket, .operator .add, .closeBracket]
      ∧ ¬ StartsSignedOperand [.closeBracket] := by
  have answered : (solve "mode(+)" {}).result = .ok 0 := by decide +kernel
  have lexed
      : lex "mode(+)"
        = .ok [.function (.nullary .current), .openBracket, .operator .add, .closeBracket] :=
    rfl
  obtain ⟨tokens, written, iff⟩ := missing_operand_iff_isLonePlus answered
  obtain rfl := Except.ok.inj (lexed.symm.trans written)
  have lone := iff [.function (.nullary .current), .openBracket] (.operator .add) [.closeBracket]
    rfl rfl rfl
  exact ⟨answered, lexed, lone.mpr ⟨rfl, [], .current, 0, 0, [], rfl, rfl⟩⟩

end Calculator
