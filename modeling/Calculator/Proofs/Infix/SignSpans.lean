import Calculator.Proofs.Infix.Placement
import Calculator.Proofs.Infix.Span

/-! Where the brackets around signed operands stand. Each minus that is a sign and has an operand
gets a pair from itself to the end of the operand, with a zero in front, and each plus that is a
sign is dropped.
-/

namespace Calculator.Infix

open SignReading (allowsSign)

/-- Whether a token is a sign, by what stands in front of it. -/
def mayHoldSign (before : List Token) : Bool :=
  before.head?.all allowsSign

/-- What a minus that is a sign takes: itself and the operand behind it. -/
def minusSpan? (before : List Token) (t : Token) (after : List Token) : Option Span :=
  if mayHoldSign before = true ∧ t = .operator .sub then
    (operandLength? after).map fun n => ⟨before.length, before.length + 1 + n⟩
  else
    none

/-- What is left of a token. A plus that is a sign is dropped, and a minus that is a sign subtracts
its operand from zero.
-/
def signImage (before : List Token) (t : Token) (after : List Token) : List Token :=
  if mayHoldSign before = true ∧ t = .operator .add then
    []
  else if (minusSpan? before t after).isSome then
    [.number 0, t]
  else
    [t]

/-- The pass that rewrites signs. -/
def signPass : Pass where
  span? := minusSpan?
  image := signImage

--------------------------------------------------------------------------------
-- Single tokens
--------------------------------------------------------------------------------

section

variable {before tokens after output : List Token} {t : Token}

/-- What is no sign is kept, without brackets. -/
theorem signPass_of_kept (kept : mayHoldSign before = true → t.isSign = false)
    (after : List Token)
    : signPass.span? before t after = none ∧ signPass.image before t after = [t] := by
  have other (op : Operator) (sign : Token.isSign (.operator op) = true)
      : ¬(mayHoldSign before = true ∧ t = .operator op) := by
    rintro ⟨signed, rfl⟩
    rw [kept signed] at sign
    cases sign
  have none : minusSpan? before t after = none := if_neg (other .sub rfl)
  exact ⟨none, by simp [signPass, signImage, none, other .add rfl]⟩

theorem rewrites_kept (kept : mayHoldSign before = true → t.isSign = false)
    (behind : signPass.Rewrites (t :: before) tokens after output)
    : signPass.Rewrites before (t :: tokens) after (t :: output) := by
  obtain ⟨none, image⟩ := signPass_of_kept kept (tokens ++ after)
  have rewrites := Pass.Rewrites.cons none behind
  rwa [image] at rewrites

/-- A plus that is a sign leaves nothing behind. -/
theorem rewrites_plus (signed : mayHoldSign before = true)
    (behind : signPass.Rewrites (.operator .add :: before) tokens after output)
    : signPass.Rewrites before (.operator .add :: tokens) after output := by
  have none : signPass.span? before (.operator .add) (tokens ++ after) = none := by
    simp [signPass, minusSpan?]
  have image : signPass.image before (.operator .add) (tokens ++ after) = [] := by
    simp [signPass, signImage, signed]
  have rewrites := Pass.Rewrites.cons none behind
  rwa [image] at rewrites

/-- A minus without an operand is kept. -/
theorem rewrites_minus (missing : operandLength? (tokens ++ after) = none)
    (behind : signPass.Rewrites (.operator .sub :: before) tokens after output)
    : signPass.Rewrites before (.operator .sub :: tokens) after (.operator .sub :: output) := by
  have none : minusSpan? before (.operator .sub) (tokens ++ after) = none := by
    simp [minusSpan?, missing]
  have image : signPass.image before (.operator .sub) (tokens ++ after) = [.operator .sub] := by
    simp [signPass, signImage, none]
  have rewrites := Pass.Rewrites.cons none behind
  rwa [image] at rewrites

/-- A minus with an operand subtracts it from zero. -/
theorem rewrites_negation (signed : mayHoldSign before = true)
    (length : operandLength? (tokens ++ after) = some tokens.length)
    (behind : signPass.Rewrites (.operator .sub :: before) tokens after output)
    : signPass.Rewrites before (.operator .sub :: tokens) after
      (.openBracket :: .number 0 :: .operator .sub :: output ++ [.closeBracket]) := by
  have span
      : signPass.span? ([].reverse ++ before) (.operator .sub) (tokens ++ after)
        = some ⟨before.length, before.length + ([] ++ Token.operator .sub :: tokens).length⟩ := by
    simp [signPass, minusSpan?, signed, length]
    omega
  have image
      : signPass.image before (.operator .sub) (tokens ++ after) = [.number 0, .operator .sub] := by
    have marked : (minusSpan? before (.operator .sub) (tokens ++ after)).isSome = true := by
      simp [minusSpan?, signed, length]
    simp [signPass, signImage, marked]
  have enclosed := Pass.Rewrites.enclose span (.nil signPass before _) behind
  simpa [image] using enclosed

end

--------------------------------------------------------------------------------
-- Readings
--------------------------------------------------------------------------------

namespace SignReading

/-- A reading of tokens that stand between others cuts them where their first operand ends, and it
rewrites both parts as the pass does.
-/
inductive Splits (before tokens after : List Token) : SignReading → Prop where
  | operand (front back : List Token) {first rest : Layout} (parts : tokens = front ++ back)
    (length : operandLength? (tokens ++ after) = some front.length)
    (front_h : signPass.Rewrites before front (back ++ after) first.tokens)
    (back_h : signPass.Rewrites (front.reverse ++ before) back after rest.tokens)
    : Splits before tokens after (.operand first rest)
  | other {whole : Layout} (missing : operandLength? (tokens ++ after) = none)
    (whole_h : signPass.Rewrites before tokens after whole.tokens)
    : Splits before tokens after (.other whole)

namespace Splits

variable {before tokens after : List Token} {r : SignReading}

/-- A reading that cuts the tokens rewrites all of them as the pass does. -/
theorem whole (splits : Splits before tokens after r)
    : signPass.Rewrites before tokens after r.whole.tokens := by
  cases splits with
  | operand front back parts length front_h back_h =>
      subst parts
      rw [whole_operand, Layout.tokens_append]
      exact front_h.append back_h
  | other missing whole_h => exact whole_h

/-- A plus in front is dropped, and it belongs to the operand that follows. -/
theorem plus (signed : mayHoldSign before = true)
    (splits : Splits (.operator .add :: before) tokens after r)
    : Splits before (.operator .add :: tokens) after r := by
  have length := operandLength?_sign (t := .operator .add) rfl (tokens ++ after)
  cases splits with
  | operand front back parts found front_h back_h =>
      subst parts
      refine .operand (.operator .add :: front) back rfl ?_ (rewrites_plus signed front_h) ?_
      · rw [List.cons_append, length, found]
        rfl
      · simpa using back_h
  | other missing whole_h =>
      refine .other ?_ (rewrites_plus signed whole_h)
      rw [List.cons_append, length, missing]
      rfl

/-- A minus in front takes the operand that follows. -/
theorem negated (signed : mayHoldSign before = true)
    (splits : Splits (.operator .sub :: before) tokens after r)
    : Splits before (.operator .sub :: tokens) after r.negated := by
  have length := operandLength?_sign (t := .operator .sub) rfl (tokens ++ after)
  cases splits with
  | operand front back parts found front_h back_h =>
      subst parts
      refine .operand (.operator .sub :: front) back rfl ?_ ?_ (by simpa using back_h)
      · rw [List.cons_append, length, found]
        rfl
      · rw [List.append_assoc] at found
        simpa using rewrites_negation signed found front_h
  | other missing whole_h =>
      refine .other ?_ (rewrites_minus missing whole_h)
      rw [List.cons_append, length, missing]
      rfl

end Splits

/-- The reading of a layout rewrites its tokens, and where a sign may stand in front of it, it
splits them. Witness: induction on the layout.
-/
theorem splits_ofLayout {l : Layout} {before after : List Token} (placed : l.Placed before after)
    : signPass.Rewrites before l.tokens after (ofLayout (mayHoldSign before) l).whole.tokens
      ∧ (mayHoldSign before = true → Splits before l.tokens after (ofLayout true l)) := by
  induction l generalizing before after with
  | nil =>
      have nothing := Pass.Rewrites.nil signPass before after
      exact ⟨nothing, fun _ => .other placed.operandLength?_after.1 nothing⟩
  | group callee inner rest inner_ih ih =>
      have keeps (t : Token) (grouping : t.isFunction = true ∨ t = .openBracket ∨ t = .closeBracket)
          : signPass.Keeps t := by
        refine fun before after => signPass_of_kept (fun _ => ?_) after
        cases t with
        | operator op => simp [Token.isFunction] at grouping
        | _ => rfl
      have inside
          : signPass.Rewrites before (groupTokens callee inner.tokens) (rest.tokens ++ after)
            (groupTokens callee (ofLayout true inner).whole.tokens) :=
        .group keeps callee (inner_ih placed.inside).1
      have closed : mayHoldSign ((groupTokens callee inner.tokens).reverse ++ before) = false := by
        simp [groupTokens, mayHoldSign, allowsSign]
      have behind := (ih placed.behind_group).1
      rw [closed] at behind
      have splits
          : Splits before (Layout.group callee inner rest).tokens after
            (.operand (.group callee (ofLayout true inner).whole .nil)
              (ofLayout false rest).whole) := by
        rw [Layout.tokens_group_append]
        refine .operand _ _ rfl ?_ (by simpa [groupTokens] using inside) behind
        rw [List.append_assoc]
        exact placed.operandLength?_group
      exact ⟨splits.whole, fun _ => splits⟩
  | token t rest ih =>
      obtain ⟨behind, splits⟩ := ih placed.behind_token
      -- A sign takes the first part of the rest, where it is split. Any other token is rewritten
      -- by itself.
      by_cases sign : mayHoldSign before = true ∧ t.isSign = true
      · obtain ⟨signed, sign⟩ := sign
        have splits := splits (allowsSign_of_isSign sign)
        have rewritten : Splits before (Layout.token t rest).tokens after
            (ofLayout true (.token t rest)) := by
          obtain rfl | rfl : t = .operator .add ∨ t = .operator .sub := by
            simpa [Token.isSign] using sign
          · exact splits.plus signed
          · exact splits.negated signed
        rw [signed]
        exact ⟨rewritten.whole, fun _ => rewritten⟩
      · have kept : mayHoldSign before = true → t.isSign = false := by
          simpa using sign
        have whole : signPass.Rewrites before (t :: rest.tokens) after _ :=
          rewrites_kept kept behind
        by_cases operand : Layout.isOperand t rest = true
        · have closes : mayHoldSign (t :: before) = false := allowsSign_of_isOperand operand
          rw [closes] at behind whole
          have alone : signPass.Rewrites before [t] (rest.tokens ++ after) [t] :=
            rewrites_kept kept (.nil signPass _ _)
          have splits : Splits before (Layout.token t rest).tokens after
              (.operand (.token t .nil) (ofLayout false rest).whole) :=
            .operand [t] rest.tokens rfl (placed.operandLength?_operand operand) alone behind
          rw [ofLayout_of_kept kept, if_pos operand]
          refine ⟨whole, fun signed => ?_⟩
          rwa [ofLayout_of_kept fun _ => kept signed, if_pos operand]
        · rw [ofLayout_of_kept kept, if_neg operand]
          refine ⟨whole, fun signed => ?_⟩
          rw [ofLayout_of_kept fun _ => kept signed, if_neg operand]
          exact .other (placed.operandLength?_other (by simpa using operand) (kept signed)) whole

/-- Rewriting signs is the pass for them. -/
theorem rewrites_signsRewritten (tokens : List Token)
    : signPass.Rewrites [] tokens [] (signsRewritten tokens) := by
  have rewrites : signPass.Rewrites [] _ [] (ofLayout true (.ofTokens tokens)).whole.tokens :=
    (splits_ofLayout (Layout.placed_ofTokens tokens)).1
  simpa [signsRewritten] using rewrites

end SignReading

end Calculator.Infix
