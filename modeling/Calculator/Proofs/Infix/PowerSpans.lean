import Calculator.Proofs.Infix.Placement
import Calculator.Proofs.Infix.Span

/-! Where the brackets around powers stand. Each power sign with an operand in front of it and a
chain of operands behind it has its own pair, from that operand to the end of the chain.
-/

namespace Calculator.Infix

/-- What a power sign takes: the operand in front of it and the whole chain behind it. -/
def powerSpan? (before after : List Token) : Option Span :=
  (operandBefore? before).bind fun n =>
    (chainLength? after).map fun m => ⟨before.length - n, before.length + 1 + m⟩

/-- The pass that puts brackets around powers. It keeps all tokens. -/
def powerPass : Pass where
  span? before t after := if t = .operator .pow then powerSpan? before after else none
  image _ t _ := [t]

--------------------------------------------------------------------------------
-- Tokens that the pass keeps
--------------------------------------------------------------------------------

theorem powerPass_keeps {t : Token} (other : t ≠ .operator .pow)
    : powerPass.Keeps t :=
  fun _ _ => ⟨if_neg other, rfl⟩

section

variable {before tokens after output : List Token}

theorem rewrites_token {t : Token} (other : t ≠ .operator .pow) (before after : List Token)
    : powerPass.Rewrites before [t] after [t] :=
  .single (powerPass_keeps other before after).1

/-- A power sign that takes nothing is kept like any other token. -/
theorem rewrites_cons_pow (alone : powerSpan? before (tokens ++ after) = none)
    (behind : powerPass.Rewrites (.operator .pow :: before) tokens after output)
    : powerPass.Rewrites before (.operator .pow :: tokens) after (.operator .pow :: output) :=
  have none : powerPass.span? before (.operator .pow) (tokens ++ after) = .none := alone
  .cons none behind

theorem powerSpan?_of_before (alone : operandBefore? before = none) (after : List Token)
    : powerSpan? before after = none := by
  simp [powerSpan?, alone]

theorem powerSpan?_of_after (dangles : chainLength? after = none) (before : List Token)
    : powerSpan? before after = none := by
  simp [powerSpan?, dangles]

/-- A base and the chain of its exponents are enclosed together with the sign between them. -/
theorem powerSpan?_between {base exponent : List Token}
    (found : operandBefore? (base.reverse ++ before) = some base.length)
    (chained : chainLength? (exponent ++ after) = some exponent.length)
    : powerSpan? (base.reverse ++ before) (exponent ++ after)
      = some ⟨before.length, before.length + (base ++ .operator .pow :: exponent).length⟩ := by
  simp [powerSpan?, found, chained]
  omega

end

--------------------------------------------------------------------------------
-- Readings
--------------------------------------------------------------------------------

namespace PowerReading

/-- A reading of tokens that stand between others cuts them where their first operand or exponent
ends, and it rewrites both parts as the pass does. The brackets of a power sign that they begin with
are not there yet.
-/
inductive Splits (before tokens after : List Token) : PowerReading → Prop where
  | operand (front back : List Token) {chain rest : Layout} (parts : tokens = front ++ back)
    (length : chainLength? (tokens ++ after) = some front.length)
    (front_h : powerPass.Rewrites before front (back ++ after) chain.tokens)
    (back_h : powerPass.Rewrites (front.reverse ++ before) back after rest.tokens)
    : Splits before tokens after (.operand chain rest)
  | power (front back : List Token) {exponent rest : Layout}
    (parts : tokens = .operator .pow :: (front ++ back))
    (length : chainLength? (front ++ (back ++ after)) = some front.length)
    (front_h : powerPass.Rewrites (.operator .pow :: before) front (back ++ after) exponent.tokens)
    (back_h
      : powerPass.Rewrites (front.reverse ++ .operator .pow :: before) back after rest.tokens)
    : Splits before tokens after (.power exponent rest)
  | dangling (back : List Token) {rest : Layout} (parts : tokens = .operator .pow :: back)
    (length : chainLength? (back ++ after) = none)
    (back_h : powerPass.Rewrites (.operator .pow :: before) back after rest.tokens)
    : Splits before tokens after (.dangling rest)
  | other {whole : Layout} (starts : (tokens ++ after).head? ≠ some (.operator .pow))
    (length : chainLength? (tokens ++ after) = none)
    (whole_h : powerPass.Rewrites before tokens after whole.tokens)
    : Splits before tokens after (.other whole)

namespace Splits

variable {before tokens after front front' : List Token} {r : PowerReading}

/-- Where no operand stands in front, a power sign has no brackets. -/
theorem whole (splits : Splits before tokens after r)
    (alone : tokens.head? = some (.operator .pow) → operandBefore? before = none)
    : powerPass.Rewrites before tokens after r.whole.tokens := by
  cases splits with
  | operand front back parts length front_h back_h =>
      subst parts
      rw [whole_operand, Layout.tokens_append]
      exact front_h.append back_h
  | power front back parts length front_h back_h =>
      subst parts
      rw [whole_power, Layout.tokens_token, Layout.tokens_append]
      exact rewrites_cons_pow (powerSpan?_of_before (alone rfl) _) (front_h.append back_h)
  | dangling back parts length back_h =>
      subst parts
      exact rewrites_cons_pow (powerSpan?_of_after length before) back_h
  | other starts length whole_h => exact whole_h

/-- What does not begin with a chain has no chain in front of it either. -/
theorem chainLength?_eq_none (splits : Splits before tokens after r)
    (other : ∀ chain rest, r ≠ .operand chain rest)
    : chainLength? (tokens ++ after) = none := by
  cases splits with
  | operand front back _ _ _ _ => exact absurd rfl (other _ _)
  | power front back parts _ _ _ | dangling back parts _ _ =>
      subst parts
      rfl
  | other starts length whole_h => exact length

/-- A power sign in front takes the chain that follows. -/
theorem withPower (splits : Splits (.operator .pow :: before) tokens after r)
    : Splits before (.operator .pow :: tokens) after r.withPower := by
  have dangles (other : ∀ chain rest, r ≠ .operand chain rest)
      : Splits before (.operator .pow :: tokens) after (.dangling r.whole) :=
    .dangling tokens rfl (splits.chainLength?_eq_none other) (splits.whole fun _ => rfl)
  cases splits with
  | operand front back parts length front_h back_h =>
      subst parts
      exact .power front back rfl (by simpa using length) front_h back_h
  | power _ _ _ _ _ _ | dangling _ _ _ _ | other _ _ _ => exact dangles (by simp)

/-- A sign in front belongs to the chain that follows. -/
theorem withSign {t : Token} (sign : t.isSign = true) (splits : Splits (t :: before) tokens after r)
    : Splits before (t :: tokens) after (r.withSign t) := by
  have power : t ≠ .operator .pow := by
    rintro rfl
    cases sign
  have lone : operandBefore? (t :: before) = none := by
    cases t with
    | operator op => rfl
    | _ => cases sign
  -- A reading without a chain is kept whole. If it begins with a power sign, that one takes
  -- nothing, as a sign is no operand in front of it.
  have apart (other : ∀ chain rest, r ≠ .operand chain rest)
      : Splits before (t :: tokens) after (.other (.token t r.whole)) := by
    refine .other (by simpa using power) ?_ (.keep (powerPass_keeps power) ?_)
    · rw [List.cons_append, chainLength?_sign sign, splits.chainLength?_eq_none other]
      rfl
    · exact splits.whole fun _ => lone
  cases splits with
  | operand front back parts length front_h back_h =>
      subst parts
      have front_h := front_h.keep (powerPass_keeps power)
      refine .operand (t :: front) back rfl ?_ front_h (by simpa using back_h)
      rw [List.cons_append, chainLength?_sign sign, length]
      rfl
  | power _ _ _ _ _ _ | dangling _ _ _ _ | other _ _ _ => exact apart (by simp)

/-- A base in front takes the exponent that follows, and they get brackets around them. -/
theorem withBase {base : Layout → Layout} (base_tokens : ∀ l, (base l).tokens = front' ++ l.tokens)
    (front_h : powerPass.Rewrites before front (tokens ++ after) front')
    (length : operandLength? (front ++ (tokens ++ after)) = some front.length)
    (found : operandBefore? (front.reverse ++ before) = some front.length)
    (splits : Splits (front.reverse ++ before) tokens after r)
    : Splits before (front ++ tokens) after (r.withBase base) := by
  have chain : chainLength? (front ++ (tokens ++ after)) = _ := chainLength?_of_operand length
  have alone (starts : (tokens ++ after).head? ≠ some (.operator .pow))
      : Splits before (front ++ tokens) after (.operand (base .nil) r.whole) := by
    refine .operand front tokens rfl ?_ (by simpa [base_tokens] using front_h) ?_
    · rw [List.append_assoc, chain, powersLength?_of_ne starts]
      simp
    · refine splits.whole fun power => absurd ?_ starts
      rw [List.head?_append, power]
      rfl
  cases splits with
  | power exponent back parts chained exponent_h back_h =>
      subst parts
      refine .operand (front ++ .operator .pow :: exponent) back (by simp) ?_ ?_ ?_
      · rw [List.append_assoc, chain, List.cons_append, List.append_assoc, powersLength?_pow,
          chained]
        simp
        omega
      · have span
            : powerPass.span? (front.reverse ++ before) (.operator .pow)
                (exponent ++ (back ++ after)) = some _ :=
          powerSpan?_between found chained
        have enclosed := Pass.Rewrites.enclose span (by simpa using front_h) exponent_h
        simpa [base_tokens, powerPass] using enclosed
      · simpa using back_h
  | dangling back parts dangles back_h =>
      subst parts
      refine .other ?_ ?_ ?_
      · rw [List.append_assoc]
        exact head?_ne_pow length
      · rw [List.append_assoc, chain, List.cons_append, powersLength?_pow, dangles]
        rfl
      · rw [base_tokens]
        exact front_h.append (rewrites_cons_pow (powerSpan?_of_after dangles _) back_h)
  | operand _ _ _ chained _ _ =>
      obtain ⟨n, operand, _⟩ := Option.bind_eq_some_iff.mp chained
      exact alone (head?_ne_pow operand)
  | other starts _ _ => exact alone starts

end Splits

/-- The reading of a layout splits its tokens. Witness: induction on the layout. -/
theorem splits_ofLayout {l : Layout} {before after : List Token} (placed : l.Placed before after)
    : Splits before l.tokens after (ofLayout l) := by
  induction l generalizing before after with
  | nil =>
      obtain ⟨missing, starts⟩ := placed.operandLength?_after
      exact .other starts (by simp [chainLength?, missing]) (.nil powerPass before after)
  | group callee inner rest inner_ih ih =>
      have inside := (inner_ih placed.inside).whole fun _ => rfl
      have keeps (t : Token) (grouping : t.isFunction = true ∨ t = .openBracket ∨ t = .closeBracket)
          : powerPass.Keeps t := by
        refine powerPass_keeps ?_
        rintro rfl
        simp [Token.isFunction] at grouping
      rw [Layout.tokens_group_append]
      exact (ih placed.behind_group).withBase (Layout.tokens_group_append callee _)
        (.group keeps callee inside) placed.operandLength?_group placed.operandBefore?_group
  | token t rest ih =>
      have splits := ih placed.behind_token
      unfold ofLayout
      split
      · rename_i operand
        have power : t ≠ .operator .pow := by
          rintro rfl
          cases operand
        have found : operandBefore? ([t] ++ before) = some 1 :=
          Layout.Placed.operandBefore?_operand operand
        exact Splits.withBase (fun _ => rfl) (rewrites_token power before _)
          (placed.operandLength?_operand operand) found splits
      · rename_i other
        rw [Bool.not_eq_true] at other
        split
        · rename_i power
          subst power
          exact splits.withPower
        · rename_i power
          split
          · rename_i sign
            exact splits.withSign sign
          · rename_i sign
            rw [Bool.not_eq_true] at sign
            have missing := placed.operandLength?_other other sign
            refine .other (by simpa using power) (by simp [chainLength?, missing]) ?_
            refine .keep (powerPass_keeps power) (splits.whole fun starts => ?_)
            refine placed.operandBefore?_other other (Layout.startsUnmatched_of_head? ?_)
            simp [starts]

/-- Bracketing powers is the pass for them. -/
theorem rewrites_powersGrouped (tokens : List Token)
    : powerPass.Rewrites [] tokens [] (powersGrouped tokens) := by
  have splits := splits_ofLayout (Layout.placed_ofTokens tokens)
  simpa [powersGrouped] using splits.whole fun _ => rfl

end PowerReading

end Calculator.Infix
