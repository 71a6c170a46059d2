import Calculator.Proofs.Infix.Depth

/-! Operands of a token list, found without its layout. An operand behind a token is found from left
to right, and one in front of it from right to left; a bracket is passed together with its partner.
-/

namespace Calculator.Infix

open Postfix (depthBehind)

--------------------------------------------------------------------------------
-- Partners of brackets
--------------------------------------------------------------------------------

/-- How many tokens there are up to the bracket `outward` that leads out of all brackets, which are
`level` more than one. From left to right this is a bracket that closes, and from right to left one
that opens.
-/
def partnerLength? (inward outward : Token) : Nat → List Token → Option Nat
  | _, [] => none
  | level, t :: rest =>
      if t = outward then
        match level with
        | 0 => some 1
        | level + 1 => (partnerLength? inward outward level rest).map (· + 1)
      else
        (partnerLength? inward outward (if t = inward then level + 1 else level) rest).map (· + 1)

/-- How many tokens there are up to the partner of a bracket that opens in front of them. -/
def groupLength? (tokens : List Token) : Option Nat :=
  partnerLength? .openBracket .closeBracket 0 tokens

/-- How many tokens there are up to the partner of a bracket that closes behind them. The tokens are
given from right to left.
-/
def groupBefore? (tokens : List Token) : Option Nat :=
  partnerLength? .closeBracket .openBracket 0 tokens

--------------------------------------------------------------------------------
-- Operands
--------------------------------------------------------------------------------

/-- How many tokens the operand has that a list begins with. Signs in front belong to it, and so
does a function in front of a group.
-/
def operandLength? : List Token → Option Nat
  | .operator op :: rest =>
      if (Token.operator op).isSign then (operandLength? rest).map (· + 1) else none
  | .openBracket :: rest => (groupLength? rest).map (· + 1)
  | .function _ :: .openBracket :: rest => (groupLength? rest).map (· + 2)
  | .function _ :: _ | .number _ :: _ | .constant _ :: _ => some 1
  | _ => none

/-- How many tokens the operand has that a list ends with, without signs. The list is given from
right to left.
-/
def operandBefore? : List Token → Option Nat
  | .closeBracket :: before =>
      (groupBefore? before).map fun n => if before[n]?.any Token.isFunction then n + 2 else n + 1
  | .function _ :: _ | .number _ :: _ | .constant _ :: _ => some 1
  | _ => none

/-- How many tokens the rest of an operand and the powers taken of it have, where `pending` tokens
of the operand are still to come. Every power sign needs an operand behind it.
-/
def powersLength? : Nat → List Token → Option Nat
  | 0, .operator .pow :: rest =>
      ((operandLength? rest).bind fun pending => powersLength? pending rest).map (· + 1)
  | 0, _ => some 0
  | pending + 1, _ :: rest => (powersLength? pending rest).map (· + 1)
  | _ + 1, [] => none

/-- How many tokens the operand that a list begins with and the chain of powers taken of it have. -/
def chainLength? (tokens : List Token) : Option Nat :=
  (operandLength? tokens).bind fun pending => powersLength? pending tokens

--------------------------------------------------------------------------------
-- Passing brackets
--------------------------------------------------------------------------------

/-- There is a depth behind a token, unless it closes a bracket where none is open. -/
theorem exists_depthBehind {t : Token} {level : Nat} (inside : ¬(t = .closeBracket ∧ level = 0))
    : ∃ behind, depthBehind level t = some behind := by
  cases t with
  | closeBracket =>
      cases level with
      | zero => exact absurd ⟨rfl, rfl⟩ inside
      | succ level => exact ⟨level, rfl⟩
  | _ => exact ⟨_, rfl⟩

/-- There is a depth in front of a token, unless it opens a bracket and none is open behind it. -/
theorem exists_depthBehind_eq {t : Token} {behind : Nat}
    (inside : ¬(t = .openBracket ∧ behind = 0))
    : ∃ level, depthBehind level t = some behind := by
  cases t with
  | openBracket =>
      cases behind with
      | zero => exact absurd ⟨rfl, rfl⟩ inside
      | succ level => exact ⟨level, rfl⟩
  | closeBracket => exact ⟨behind + 1, rfl⟩
  | _ => exact ⟨behind, rfl⟩

/-- Every token is passed on the way to a partner, but for the partner itself. -/
theorem groupLength?_cons {t : Token} {level behind : Nat}
    (first : depthBehind level t = some behind) (rest : List Token)
    : partnerLength? .openBracket .closeBracket level (t :: rest)
      = (partnerLength? .openBracket .closeBracket behind rest).map (· + 1) := by
  cases t with
  | closeBracket =>
      cases level with
      | zero => cases first
      | succ level =>
          cases first
          rfl
  | number x | constant c | function f | operator op | separator | openBracket =>
      cases first
      rfl

/-- The scan to the left passes a token by going back to the depth before it. -/
theorem groupBefore?_cons {t : Token} {level behind : Nat}
    (last : depthBehind level t = some behind) (before : List Token)
    : partnerLength? .closeBracket .openBracket behind (t :: before)
      = (partnerLength? .closeBracket .openBracket level before).map (· + 1) := by
  cases t with
  | closeBracket =>
      cases level with
      | zero => cases last
      | succ level =>
          cases last
          rfl
  | number x | constant c | function f | operator op | separator | openBracket =>
      cases last
      rfl

/-- Tokens are passed with the brackets that they open or close. -/
theorem groupLength?_append {tokens : List Token} {level behind : Nat}
    (counted : tokens.foldlM depthBehind level = some behind) (rest : List Token)
    : partnerLength? .openBracket .closeBracket level (tokens ++ rest)
      = (partnerLength? .openBracket .closeBracket behind rest).map (· + tokens.length) := by
  induction tokens generalizing level with
  | nil =>
      cases counted
      simp
  | cons t tokens ih =>
      obtain ⟨between, first, later⟩ := Option.bind_eq_some_iff.mp (by simpa using counted)
      rw [List.cons_append, groupLength?_cons first, ih later, Option.map_map]
      rfl

/-- The scan to the left passes a list at whose ends the depths are known. -/
theorem groupBefore?_append {tokens : List Token} {level behind : Nat}
    (counted : tokens.foldlM depthBehind level = some behind) (before : List Token)
    : partnerLength? .closeBracket .openBracket behind (tokens.reverse ++ before)
      = (partnerLength? .closeBracket .openBracket level before).map (· + tokens.length) := by
  induction tokens generalizing level before with
  | nil =>
      cases counted
      simp
  | cons t tokens ih =>
      obtain ⟨between, first, later⟩ := Option.bind_eq_some_iff.mp (by simpa using counted)
      rw [List.reverse_cons, List.append_assoc, List.singleton_append, ih later,
        groupBefore?_cons first, Option.map_map]
      simp [Function.comp_def, Nat.add_right_comm, ← Nat.add_assoc]

/-- Around balanced tokens the brackets are partners. -/
theorem groupLength?_of_balanced {inner : List Token} (balanced : Balanced inner)
    (behind : List Token)
    : groupLength? (inner ++ .closeBracket :: behind) = some (inner.length + 1) := by
  rw [groupLength?, groupLength?_append balanced]
  simp [partnerLength?, Nat.add_comm]

theorem groupBefore?_of_balanced {inner : List Token} (balanced : Balanced inner)
    (before : List Token)
    : groupBefore? (inner.reverse ++ .openBracket :: before) = some (inner.length + 1) := by
  rw [groupBefore?, groupBefore?_append balanced]
  simp [partnerLength?, Nat.add_comm]

/-- What is passed on the way to a partner closes all other brackets that are open. -/
theorem exists_of_groupLength? {tokens : List Token} {level n : Nat}
    (found : partnerLength? .openBracket .closeBracket level tokens = some n)
    : ∃ inner rest : List Token, tokens = inner ++ .closeBracket :: rest ∧ n = inner.length + 1
        ∧ inner.foldlM depthBehind level = some 0 := by
  induction tokens generalizing level n with
  | nil => cases found
  | cons t tokens ih =>
      by_cases partner : t = .closeBracket ∧ level = 0
      · obtain ⟨rfl, rfl⟩ := partner
        cases found
        exact ⟨[], tokens, rfl, rfl, rfl⟩
      · obtain ⟨between, first⟩ := exists_depthBehind partner
        rw [groupLength?_cons first] at found
        obtain ⟨m, later, rfl⟩ := Option.map_eq_some_iff.mp found
        obtain ⟨inner, rest, rfl, rfl, counted⟩ := ih later
        exact ⟨t :: inner, rest, rfl, rfl, by simp [first, counted]⟩

/-- Where the scan to the left ends. The tokens that it has passed lead from one bracket inwards to
the depth it began with.
-/
theorem exists_of_groupBefore? {before : List Token} {level n : Nat}
    (found : partnerLength? .closeBracket .openBracket level before = some n)
    : ∃ inner rest : List Token, before = inner.reverse ++ .openBracket :: rest
        ∧ n = inner.length + 1 ∧ inner.foldlM depthBehind 0 = some level := by
  induction before generalizing level n with
  | nil => cases found
  | cons t before ih =>
      by_cases partner : t = .openBracket ∧ level = 0
      · obtain ⟨rfl, rfl⟩ := partner
        cases found
        exact ⟨[], before, rfl, rfl, rfl⟩
      · obtain ⟨between, last⟩ := exists_depthBehind_eq partner
        rw [groupBefore?_cons last] at found
        obtain ⟨m, later, rfl⟩ := Option.map_eq_some_iff.mp found
        obtain ⟨inner, rest, rfl, rfl, counted⟩ := ih later
        exact ⟨inner ++ [t], rest, by simp, by simp, by simp [List.foldlM_append, counted, last]⟩

--------------------------------------------------------------------------------
-- Operands and powers
--------------------------------------------------------------------------------

/-- A sign belongs to the operand behind it. -/
theorem operandLength?_sign {t : Token} (sign : t.isSign = true) (rest : List Token)
    : operandLength? (t :: rest) = (operandLength? rest).map (· + 1) := by
  cases t with
  | operator op => exact if_pos sign
  | _ => cases sign

/-- A function in front of no bracket that opens is an operand by itself. -/
theorem operandLength?_function {f : Function} {rest : List Token}
    (alone : rest.head? ≠ some .openBracket)
    : operandLength? (.function f :: rest) = some 1 := by
  cases rest with
  | nil => rfl
  | cons next rest => cases next <;> first | rfl | exact absurd rfl alone

/-- The tokens of an operand that are still to come are passed. -/
theorem powersLength?_append (front rest : List Token)
    : powersLength? front.length (front ++ rest)
      = (powersLength? 0 rest).map (· + front.length) := by
  induction front with
  | nil => simp
  | cons t front ih =>
      change (powersLength? front.length (front ++ rest)).map (· + 1) = _
      rw [ih, Option.map_map]
      rfl

/-- Where no power sign follows, an operand is a chain by itself. -/
theorem powersLength?_of_ne {tokens : List Token} (ends : tokens.head? ≠ some (.operator .pow))
    : powersLength? 0 tokens = some 0 := by
  cases tokens with
  | nil => rfl
  | cons t rest =>
      cases t with
      | operator op =>
          cases op with
          | pow => exact absurd rfl ends
          | _ => rfl
      | _ => rfl

/-- A power sign takes the whole chain behind it as its exponent. -/
theorem powersLength?_pow (rest : List Token)
    : powersLength? 0 (.operator .pow :: rest) = (chainLength? rest).map (· + 1) :=
  rfl

/-- A chain is its first operand and what the powers behind it take. -/
theorem chainLength?_of_operand {front : List Token} {rest : List Token}
    (operand : operandLength? (front ++ rest) = some front.length)
    : chainLength? (front ++ rest) = (powersLength? 0 rest).map (· + front.length) := by
  rw [chainLength?, operand, Option.bind_some, powersLength?_append]

/-- A power sign begins no operand. -/
theorem head?_ne_pow {tokens : List Token} {n : Nat} (found : operandLength? tokens = some n)
    : tokens.head? ≠ some (.operator .pow) := by
  intro power
  obtain ⟨rest, rfl⟩ := List.head?_eq_some_iff.mp power
  cases found

theorem chainLength?_sign {t : Token} (sign : t.isSign = true) (rest : List Token)
    : chainLength? (t :: rest) = (chainLength? rest).map (· + 1) := by
  simp only [chainLength?, operandLength?_sign sign]
  cases operandLength? rest <;> rfl

--------------------------------------------------------------------------------
-- Operands are nested
--------------------------------------------------------------------------------

/-- A list begins with `n` tokens that are nested. -/
def Begins (tokens : List Token) (n : Nat) : Prop :=
  ∃ front rest, tokens = front ++ rest ∧ front.length = n ∧ Nested false front

theorem begins_zero (tokens : List Token)
    : Begins tokens 0 :=
  ⟨[], tokens, rfl, rfl, .nil false⟩

theorem Begins.cons {tokens : List Token} {n : Nat} {t : Token} (nested : Nested false [t])
    (begins : Begins tokens n)
    : Begins (t :: tokens) (n + 1) := by
  obtain ⟨front, rest, rfl, rfl, front_nested⟩ := begins
  exact ⟨t :: front, rest, rfl, rfl, nested.append front_nested⟩

theorem nested_function (f : Function)
    : Nested false [.function f] :=
  .singleton (by simp) (by simp) (by simp)

theorem begins_group {tokens : List Token} {n : Nat} (found : groupLength? tokens = some n)
    : Begins (.openBracket :: tokens) (n + 1) := by
  obtain ⟨inner, rest, rfl, rfl, counted⟩ := exists_of_groupLength? found
  have nested : Nested true inner := nested_iff_balanced.mpr counted
  exact ⟨.openBracket :: inner ++ [.closeBracket], rest, by simp, by simp, nested.enclosed⟩

/-- An operand is nested. Witness: induction on the tokens, one case for each way to begin an
operand.
-/
theorem begins_operand {tokens : List Token} {n : Nat} (found : operandLength? tokens = some n)
    : Begins tokens n := by
  induction tokens generalizing n with
  | nil => cases found
  | cons t rest ih =>
      cases t with
      | operator op =>
          simp only [operandLength?, Option.ite_none_right_eq_some] at found
          obtain ⟨_, found⟩ := found
          obtain ⟨m, behind, rfl⟩ := Option.map_eq_some_iff.mp found
          exact (ih behind).cons (nested_operator op)
      | openBracket =>
          obtain ⟨m, behind, rfl⟩ := Option.map_eq_some_iff.mp found
          exact begins_group behind
      | function f =>
          by_cases opens : rest.head? = some .openBracket
          · obtain ⟨rest, rfl⟩ := List.head?_eq_some_iff.mp opens
            obtain ⟨m, behind, rfl⟩ := Option.map_eq_some_iff.mp found
            exact (begins_group behind).cons (nested_function f)
          · obtain rfl : 1 = n := Option.some.inj ((operandLength?_function opens).symm.trans found)
            exact (begins_zero rest).cons (nested_function f)
      | number x | constant c =>
          cases found
          exact (begins_zero rest).cons (.singleton (by simp) (by simp) (by simp))
      | closeBracket | separator => cases found

/-- The tokens of a chain are nested. Witness: induction on the length of the list; the chain behind
the next power sign is shorter.
-/
theorem begins_chain {tokens : List Token} {n : Nat} (found : chainLength? tokens = some n)
    : Begins tokens n := by
  induction length : tokens.length using Nat.strong_induction_on generalizing tokens n with
  | h size ih =>
      obtain ⟨pending, operand, _⟩ := Option.bind_eq_some_iff.mp found
      obtain ⟨front, rest, rfl, rfl, nested⟩ := begins_operand operand
      rw [chainLength?_of_operand operand] at found
      obtain ⟨k, powers, rfl⟩ := Option.map_eq_some_iff.mp found
      by_cases power : rest.head? = some (.operator .pow)
      · obtain ⟨rest, rfl⟩ := List.head?_eq_some_iff.mp power
        rw [powersLength?_pow] at powers
        obtain ⟨m, chain, rfl⟩ := Option.map_eq_some_iff.mp powers
        have shorter : rest.length < size := by
          rw [← length, List.length_append, List.length_cons]
          omega
        obtain ⟨exponent, behind, rfl, rfl, exponent_nested⟩ := ih _ shorter chain rfl
        refine ⟨front ++ .operator .pow :: exponent, behind, by simp, ?_, ?_⟩
        · simp [Nat.add_comm]
        · exact nested.append ((nested_operator .pow).append exponent_nested)
      · obtain rfl : 0 = k := Option.some.inj ((powersLength?_of_ne power).symm.trans powers)
        exact ⟨front, rest, rfl, by simp, nested⟩

/-- Behind a bracket that opens, from right to left, is what stands in front of it. -/
theorem getElem?_reverse_append (inner : List Token) (t : Token) (outside : List Token)
    : (inner.reverse ++ t :: outside)[inner.length + 1]? = outside.head? := by
  simp [List.getElem?_append_right, List.head?_eq_getElem?]

theorem exists_function_of_head? {before : List Token}
    (called : before.head?.any Token.isFunction = true)
    : ∃ f rest, before = .function f :: rest := by
  cases before with
  | nil => cases called
  | cons t rest =>
      cases t with
      | function f => exact ⟨f, rest, rfl⟩
      | _ => cases called

/-- The tokens of an operand in front are nested. -/
theorem exists_of_operandBefore? {before : List Token} {n : Nat}
    (found : operandBefore? before = some n)
    : ∃ operand rest : List Token, before = operand.reverse ++ rest ∧ operand.length = n
        ∧ Nested false operand := by
  cases before with
  | nil => cases found
  | cons t before =>
      cases t with
      | closeBracket =>
          obtain ⟨m, group, same⟩ := Option.map_eq_some_iff.mp found
          obtain ⟨inner, rest, rfl, rfl, counted⟩ := exists_of_groupBefore? group
          have nested : Nested true inner := nested_iff_balanced.mpr counted
          rw [getElem?_reverse_append] at same
          have enclosed := nested.enclosed
          by_cases called : rest.head?.any Token.isFunction = true
          · rw [if_pos called] at same
            obtain ⟨f, rest, rfl⟩ := exists_function_of_head? called
            refine ⟨.function f :: .openBracket :: inner ++ [.closeBracket], rest, by simp, ?_, ?_⟩
            · simpa using same
            · exact (nested_function f).append enclosed
          · rw [if_neg called] at same
            exact ⟨.openBracket :: inner ++ [.closeBracket], rest, by simp, by simpa using same,
              enclosed⟩
      | number x | constant c | function f =>
          cases found
          exact ⟨[_], before, rfl, rfl, .singleton (by simp) (by simp) (by simp)⟩
      | operator op | openBracket | separator => cases found

end Calculator.Infix
