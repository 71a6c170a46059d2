import Calculator.Proofs.Infix.PowerSpans
import Calculator.Proofs.Infix.SignSpans

/-! The later passes add matched brackets only. The pairs that they put in enclose balanced parts of
a list, so that no two pairs cross, whether the list itself is balanced or not.
-/

namespace Calculator.Infix

open Postfix (depthBehind)

--------------------------------------------------------------------------------
-- Pairs of brackets
--------------------------------------------------------------------------------

/-- The bracket that opens at position `i` is closed at position `j`. -/
def Partners (tokens : List Token) (i j : Nat) : Prop :=
  ∃ front inner back, tokens = front ++ .openBracket :: (inner ++ .closeBracket :: back)
    ∧ Balanced inner ∧ i = front.length ∧ j = front.length + 1 + inner.length

/-- Further brackets that are open stay open. -/
theorem foldlM_depthBehind_add {tokens : List Token} {level behind : Nat}
    (counted : tokens.foldlM depthBehind level = some behind) (more : Nat)
    : tokens.foldlM depthBehind (level + more) = some (behind + more) := by
  induction tokens generalizing level with
  | nil =>
      cases counted
      rfl
  | cons t rest ih =>
      obtain ⟨between, first, later⟩ := Option.bind_eq_some_iff.mp (by simpa using counted)
      have step : depthBehind (level + more) t = some (between + more) := by
        cases t with
        | openBracket =>
            cases first
            exact congrArg some (Nat.add_right_comm level more 1)
        | closeBracket =>
            cases level with
            | zero => cases first
            | succ level =>
                cases first
                rw [Nat.add_right_comm]
                rfl
        | number x | constant c | function f | operator op | separator =>
            cases first
            rfl
      rw [List.foldlM_cons, step]
      exact ih later

/-- A list that ends inside a balanced one, behind a bracket that opens in front of that, is not
balanced.
-/
theorem not_balanced_of_opens {front part rest : List Token} (inner : Balanced (part ++ rest))
    : ¬Balanced (front ++ .openBracket :: part) := by
  intro balanced
  obtain ⟨level, _, later⟩ := Option.bind_eq_some_iff.mp
    (by simpa [Balanced, List.foldlM_append, depthBehind] using balanced)
  obtain ⟨behind, counted, _⟩ := Option.bind_eq_some_iff.mp
    (by simpa [Balanced, List.foldlM_append] using inner)
  have shifted := foldlM_depthBehind_add counted (level + 1)
  rw [Nat.zero_add, later] at shifted
  cases shifted

/-- A list that begins inside a balanced one, and ends behind the bracket that closes behind that,
is not balanced.
-/
theorem not_balanced_of_closes {rest part back : List Token} (inner : Balanced (rest ++ part))
    : ¬Balanced (part ++ .closeBracket :: back) := by
  intro balanced
  obtain ⟨level, counted, later⟩ := Option.bind_eq_some_iff.mp
    (by simpa [Balanced, List.foldlM_append] using balanced)
  obtain ⟨between, _, closed⟩ := Option.bind_eq_some_iff.mp
    (by simpa [Balanced, List.foldlM_append] using inner)
  have shifted := foldlM_depthBehind_add counted between
  rw [Nat.zero_add, closed] at shifted
  obtain rfl : level = 0 := by
    have same := Option.some.inj shifted
    omega
  cases later

/-- Two splits of one list, the first one further to the left. -/
theorem exists_between {a b c d : List Token} (same : a ++ b = c ++ d) (le : a.length ≤ c.length)
    : ∃ e, c = a ++ e ∧ b = e ++ d := by
  rcases List.append_eq_append_iff.mp same with ⟨e, rfl, rfl⟩ | ⟨e, rfl, rfl⟩
  · exact ⟨e, rfl, rfl⟩
  · rw [List.length_append] at le
    obtain rfl : e = [] := List.length_eq_zero_iff.mp (by omega)
    exact ⟨[], by simp, by simp⟩

/-- A balanced part of a list holds both brackets of a pair or none of them. -/
theorem holds_iff_of_partners {tokens front part back : List Token} {i j : Nat}
    (parts : tokens = front ++ (part ++ back)) (balanced : Balanced part)
    (partners : Partners tokens i j)
    : Span.Holds ⟨front.length, front.length + part.length⟩ i
      ↔ Span.Holds ⟨front.length, front.length + part.length⟩ j := by
  obtain ⟨outside, inner, behind, same, inner_balanced, rfl, rfl⟩ := partners
  rw [parts] at same
  simp only [Span.Holds]
  constructor
  · rintro ⟨starts, stops⟩
    refine ⟨by omega, ?_⟩
    by_contra ends
    obtain ⟨first, rfl, rest⟩ := exists_between same starts
    rw [List.length_append] at stops ends
    have opened
        : (first ++ [.openBracket]) ++ (inner ++ .closeBracket :: behind) = part ++ back := by
      simp [rest]
    obtain ⟨begun, rfl, later⟩ := exists_between opened (by simp; omega)
    have ended : begun.length ≤ inner.length := by
      simp only [List.length_append, List.length_singleton] at ends
      omega
    obtain ⟨left, rfl, _⟩ := exists_between later.symm ended
    exact not_balanced_of_opens inner_balanced (by simpa using balanced)
  · rintro ⟨starts, stops⟩
    refine ⟨?_, by omega⟩
    by_contra begins
    have opened
        : (outside ++ [.openBracket]) ++ (inner ++ .closeBracket :: behind)
          = front ++ (part ++ back) := by
      simp [same]
    obtain ⟨passed, rfl, rest⟩ := exists_between opened (by simp; omega)
    simp only [List.length_append, List.length_singleton] at starts stops
    obtain ⟨begun, rfl, later⟩ := exists_between rest.symm (by omega)
    have closed : (begun ++ [.closeBracket]) ++ behind = part ++ back := by
      simp [later]
    rw [List.length_append] at stops
    obtain ⟨left, rfl, _⟩ := exists_between closed (by simp; omega)
    exact not_balanced_of_closes inner_balanced (by simpa using balanced)

--------------------------------------------------------------------------------
-- Spans of passes
--------------------------------------------------------------------------------

/-- Brackets around spans of a list match: they enclose balanced parts of it, and they cross neither
each other nor the pairs of the list.
-/
structure MatchedSpans (tokens : List Token) (spans : List Span) : Prop where
  bounded : ∀ s ∈ spans, s.first < s.stop ∧ s.stop ≤ tokens.length
  balanced : ∀ s ∈ spans, Balanced (s.segment tokens)
  parallel : spans.Pairwise Span.Parallel
  partners : ∀ s ∈ spans, ∀ i j, Partners tokens i j → (s.Holds i ↔ s.Holds j)

/-- A span that a token takes is a balanced part of its list. -/
def Takes (before : List Token) (t : Token) (after : List Token) (s : Span) : Prop :=
  ∃ front part back, before.reverse ++ t :: after = front ++ (part ++ back) ∧ Balanced part
    ∧ s = ⟨front.length, front.length + part.length⟩

namespace Pass

/-- Every span is the one of a token. -/
theorem exists_of_mem_spansIn {p : Pass} {s : Span} {before tokens after : List Token}
    (member : s ∈ p.spansIn before tokens after)
    : ∃ front t back, tokens = front ++ t :: back
        ∧ p.span? (front.reverse ++ before) t (back ++ after) = some s := by
  induction tokens generalizing before with
  | nil => cases member
  | cons t rest ih =>
      simp only [spansIn, along] at member
      cases found : p.span? before t (rest ++ after) with
      | none =>
          rw [found, List.reduceOption_cons_of_none] at member
          obtain ⟨front, u, back, rfl, later⟩ := ih member
          exact ⟨t :: front, u, back, rfl, by simpa using later⟩
      | some first =>
          rw [found, List.reduceOption_cons_of_some] at member
          rcases List.mem_cons.mp member with rfl | member
          · exact ⟨[], t, rest, rfl, found⟩
          · obtain ⟨front, u, back, rfl, later⟩ := ih member
            exact ⟨t :: front, u, back, rfl, by simpa using later⟩

/-- A pass whose tokens take balanced parts of a list puts in matched brackets. -/
theorem Rewrites.matchedSpans {p : Pass} {tokens output : List Token}
    (rewrites : p.Rewrites [] tokens [] output)
    (takes : ∀ before t after s, p.span? before t after = some s → Takes before t after s)
    : MatchedSpans tokens (p.spans tokens) := by
  have parts (s : Span) (member : s ∈ p.spans tokens)
      : ∃ front part back, tokens = front ++ (part ++ back) ∧ Balanced part
          ∧ s = ⟨front.length, front.length + part.length⟩ := by
    obtain ⟨front, t, back, rfl, found⟩ := exists_of_mem_spansIn member
    have taken := takes _ _ _ _ found
    simpa [Takes] using taken
  refine ⟨fun s member => ?_, fun s member => ?_, rewrites.parallel, fun s member i j pair => ?_⟩
  · have inside := rewrites.inside s member
    simpa [imagesIn] using inside.2
  · obtain ⟨front, part, back, rfl, balanced, rfl⟩ := parts s member
    simpa [Span.segment] using balanced
  · obtain ⟨front, part, back, same, balanced, rfl⟩ := parts s member
    exact holds_iff_of_partners same balanced pair

end Pass

/-- A power takes its base and its exponent, which are nested. -/
theorem takes_powerSpan {before : List Token} {t : Token} {after : List Token} {s : Span}
    (found : powerPass.span? before t after = some s)
    : Takes before t after s := by
  obtain ⟨rfl, found⟩ : t = .operator .pow ∧ powerSpan? before after = some s := by
    simpa [powerPass] using found
  obtain ⟨n, base, found⟩ := Option.bind_eq_some_iff.mp found
  obtain ⟨m, chain, rfl⟩ := Option.map_eq_some_iff.mp found
  obtain ⟨operand, front, rfl, rfl, operand_nested⟩ := exists_of_operandBefore? base
  obtain ⟨exponent, back, rfl, rfl, exponent_nested⟩ := begins_chain chain
  refine ⟨front.reverse, operand ++ .operator .pow :: exponent, back, by simp, ?_, ?_⟩
  · exact (operand_nested.append ((nested_operator .pow).append exponent_nested)).balanced
  · simp
    omega

/-- A minus takes its operand, which is nested. -/
theorem takes_minusSpan {before : List Token} {t : Token} {after : List Token} {s : Span}
    (found : signPass.span? before t after = some s)
    : Takes before t after s := by
  obtain ⟨⟨_, rfl⟩, taken⟩ : (mayHoldSign before = true ∧ t = .operator .sub)
      ∧ (operandLength? after).map (fun n => ⟨before.length, before.length + 1 + n⟩) = some s := by
    simpa [signPass, minusSpan?] using found
  obtain ⟨n, length, rfl⟩ := Option.map_eq_some_iff.mp taken
  obtain ⟨operand, back, rfl, rfl, nested⟩ := begins_operand length
  refine ⟨before.reverse, .operator .sub :: operand, back, by simp, ?_, ?_⟩
  · exact ((nested_operator .sub).append nested).balanced
  · simp
    omega

--------------------------------------------------------------------------------
-- Both passes
--------------------------------------------------------------------------------

theorem images_powerPass (tokens : List Token)
    : powerPass.images tokens = tokens.map ([·]) := by
  have kept (before : List Token) : powerPass.imagesIn before tokens [] = tokens.map ([·]) := by
    induction tokens generalizing before with
    | nil => rfl
    | cons t rest ih => exact congrArg ([t] :: ·) (ih (t :: before))
  exact kept []

/-- Whatever the tokens are, the later passes keep them in order and put in matched brackets only.
Brackets around powers go around each power sign that has an operand in front of it and a chain of
operands behind it. Where signs are rewritten, brackets go around each minus that is a sign and its
operand, with a zero in front, and each plus that is a sign is dropped. Every bracket goes in front
of a token or behind the last one, the tokens between the brackets of a pair are balanced, and no
two pairs cross. So the tokens are balanced afterwards if and only if they have been before.
Witness: the readings of the layout rewrite its tokens as the passes do, and what a token takes is
nested.
-/
theorem passes_add_matched_brackets (tokens : List Token)
    : powersGrouped tokens = bracketed (powerPass.spans tokens) 0 (tokens.map ([·]))
      ∧ signsRewritten tokens = bracketed (signPass.spans tokens) 0 (signPass.images tokens)
      ∧ MatchedSpans tokens (powerPass.spans tokens)
      ∧ MatchedSpans tokens (signPass.spans tokens)
      ∧ (Balanced (powersGrouped tokens) ↔ Balanced tokens)
      ∧ (Balanced (signsRewritten tokens) ↔ Balanced tokens) := by
  have powers := PowerReading.rewrites_powersGrouped tokens
  have signs := SignReading.rewrites_signsRewritten tokens
  refine ⟨?_, signs.output.symm, powers.matchedSpans fun _ _ _ _ => takes_powerSpan,
    signs.matchedSpans fun _ _ _ _ => takes_minusSpan,
    (sameDepths_powersGrouped tokens).balanced_iff, (sameDepths_signsRewritten tokens).balanced_iff⟩
  rw [← images_powerPass]
  exact powers.output.symm

/-- The brackets of two powers in a chain close together, behind the chain. -/
example
    : powerPass.spans
        [.operator .sub, .constant .pi, .operator .pow, .constant .e, .operator .pow,
          .constant .ans, .closeBracket]
      = [⟨1, 6⟩, ⟨3, 6⟩] := by
  decide

end Calculator.Infix
