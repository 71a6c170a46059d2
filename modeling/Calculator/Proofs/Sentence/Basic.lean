import Mathlib
import Calculator.Proofs.Infix.Juxtaposition

/-! Sentences, the well-formed infix token lists without signs, and the lists that the
conversion accepts. The conversion checks brackets and counts arguments, but it does not check
that operands and operators alternate. What the tokens add to the number of values decides
that: a level of brackets leaves at most one value for each of its arguments, and exactly one
only if the arguments are sentences.
-/

namespace Calculator

mutual

/-- The operands between the operators of a sentence. -/
inductive IsItem : List Token → Prop where
  | number (x : Float) : IsItem [.number x]
  | constant (c : Constant) : IsItem [.constant c]
  | bare (f : ModeFunction) : IsItem [.function (.nullary f)]
  | modeCall (f : ModeFunction)
    : IsItem [.function (.nullary f), .openBracket, .closeBracket]
  | call (f : UnaryFunction) {argument : List Token} (sentence : IsSentence argument)
    : IsItem (.function (.unary f) :: .openBracket :: argument ++ [.closeBracket])
  | powerCall {base exponent : List Token} (base_sentence : IsSentence base)
    (exponent_sentence : IsSentence exponent)
    : IsItem (.function .power :: .openBracket :: (base ++ .separator :: exponent)
      ++ [.closeBracket])
  | bracketed {inner : List Token} (sentence : IsSentence inner)
    : IsItem (.openBracket :: inner ++ [.closeBracket])

/-- Items with operators between them. -/
inductive IsSentence : List Token → Prop where
  | item {w : List Token} (item : IsItem w) : IsSentence w
  | operation {left right : List Token} (op : Operator) (sentence : IsSentence left)
    (item : IsItem right)
    : IsSentence (left ++ .operator op :: right)

end

theorem IsItem.value {t : Token} (value : t.isValue = true)
    : IsItem [t] := by
  cases t with
  | number x => exact .number x
  | constant c => exact .constant c
  | _ => cases value

/-- Sentences with separators between them, as many as `separators` tells. -/
inductive AreArguments : Nat → List Token → Prop where
  | first {w : List Token} (sentence : IsSentence w) : AreArguments 0 w
  | next {separators : Nat} {front w : List Token} (arguments : AreArguments separators front)
    (sentence : IsSentence w)
    : AreArguments (separators + 1) (front ++ .separator :: w)

/-- What is complete but for an item that has to follow. -/
inductive AwaitsItem : Nat → List Token → Prop where
  | start : AwaitsItem 0 []
  | operator {separators : Nat} {front : List Token} (op : Operator)
    (arguments : AreArguments separators front)
    : AwaitsItem separators (front ++ [.operator op])
  | separator {separators : Nat} {front : List Token}
    (arguments : AreArguments separators front)
    : AwaitsItem (separators + 1) (front ++ [.separator])

/-- An item completes what awaits one. Witness: it begins an argument, or continues the sentence in
front of its operator.
-/
theorem AwaitsItem.item {separators : Nat} {front w : List Token}
    (awaits : AwaitsItem separators front) (item : IsItem w)
    : AreArguments separators (front ++ w) := by
  cases awaits with
  | start => exact .first (.item item)
  | operator op arguments =>
      rw [List.append_assoc, List.singleton_append]
      cases arguments with
      | first sentence => exact .first (.operation op sentence item)
      | next arguments sentence =>
          rw [List.append_assoc, List.cons_append]
          exact .next arguments (.operation op sentence item)
  | separator arguments =>
      rw [List.append_assoc, List.singleton_append]
      exact .next arguments (.item item)

--------------------------------------------------------------------------------
-- The number of values
--------------------------------------------------------------------------------

/-- What running a token adds to the number of values. -/
def Token.weight : Token → Int
  | number _ | constant _ | function (.nullary _) => 1
  | function (.unary _) | openBracket | closeBracket | separator => 0
  | operator _ | function .power => -1

/-- What running tokens adds to the number of values. -/
def net (tokens : List Token) : Int :=
  (tokens.map Token.weight).sum

@[simp]
theorem net_nil : net [] = 0 :=
  rfl

@[simp]
theorem net_cons (t : Token) (tokens : List Token)
    : net (t :: tokens) = t.weight + net tokens :=
  rfl

@[simp]
theorem net_append (left right : List Token)
    : net (left ++ right) = net left + net right := by
  simp [net]

theorem weight_of_isValue {t : Token} (value : t.isValue = true)
    : t.weight = 1 := by
  cases t <;> first | rfl | cases value

/-- The number of arguments between brackets that hold `inner` with so many separators. -/
def argumentCount (separators : Nat) (inner : List Token) : Nat :=
  if inner = [] then 0 else separators + 1

/-- The tokens of one level of brackets as far as the conversion checks them: the groups in it
are arranged, calls have their arguments, and other groups hold no separators. The operators
may stand anywhere.
-/
inductive Arranged : Nat → List Token → Prop where
  | nil : Arranged 0 []
  | value {separators : Nat} {front : List Token} {t : Token} (value : t.isValue = true)
    (arranged : Arranged separators front)
    : Arranged separators (front ++ [t])
  | bare {separators : Nat} {front : List Token} (f : ModeFunction)
    (arranged : Arranged separators front)
    : Arranged separators (front ++ [.function (.nullary f)])
  | operator {separators : Nat} {front : List Token} (op : Operator)
    (arranged : Arranged separators front)
    : Arranged separators (front ++ [.operator op])
  | separator {separators : Nat} {front : List Token} (arranged : Arranged separators front)
    : Arranged (separators + 1) (front ++ [.separator])
  | call {separators inside : Nat} {front inner : List Token} (f : Function)
    (arranged : Arranged separators front) (inner_arranged : Arranged inside inner)
    (arity : f.arity = argumentCount inside inner)
    : Arranged separators (front ++ (.function f :: .openBracket :: inner ++ [.closeBracket]))
  | group {separators inside : Nat} {front inner : List Token}
    (arranged : Arranged separators front) (free : ∀ f, front.getLast? ≠ some (.function f))
    (inner_arranged : Arranged inside inner) (single : argumentCount inside inner ≤ 1)
    : Arranged separators (front ++ (.openBracket :: inner ++ [.closeBracket]))

/-- A level does not end where a group in it opens. -/
theorem Arranged.getLast?_ne_openBracket {separators : Nat} {w : List Token}
    (arranged : Arranged separators w)
    : w.getLast? ≠ some .openBracket := by
  cases arranged with
  | nil => simp
  | value value arranged =>
      intro same
      obtain rfl := by simpa using same
      cases value
  | call f _ _ _ | group _ _ _ _ => simp [List.getLast?_cons]
  | bare f _ | operator op _ | separator _ => simp

--------------------------------------------------------------------------------
-- A level leaves at most one value for each argument
--------------------------------------------------------------------------------

/-- Whether an operand may follow the tokens. -/
def EndsOpen (w : List Token) : Prop :=
  ∀ last ∈ w.getLast?, (∃ op, last = .operator op) ∨ last = .separator

/-- The level leaves at most one value for each argument, and one less if the last argument
is not complete. If it leaves that many it is well formed.
-/
structure Counted (separators : Nat) (w : List Token) : Prop where
  open_le : EndsOpen w → net w ≤ separators
  awaits : EndsOpen w → net w = separators → AwaitsItem separators w
  closed_le : ¬ EndsOpen w → net w ≤ separators + 1
  complete : ¬ EndsOpen w → net w = separators + 1 → AreArguments separators w

theorem Counted.le {separators : Nat} {w : List Token} (counted : Counted separators w)
    : net w ≤ separators + 1 := by
  by_cases ends : EndsOpen w
  · have bound := counted.open_le ends
    omega
  · exact counted.closed_le ends

/-- A level with one value for each argument is well formed. -/
theorem Counted.arguments {separators : Nat} {w : List Token} (counted : Counted separators w)
    (full : net w = separators + 1)
    : AreArguments separators w := by
  by_cases ends : EndsOpen w
  · have bound := counted.open_le ends
    omega
  · exact counted.complete ends full

theorem endsOpen_operator (front : List Token) (op : Operator)
    : EndsOpen (front ++ [.operator op]) := by
  simp [EndsOpen]

theorem endsOpen_separator (front : List Token)
    : EndsOpen (front ++ [.separator]) := by
  simp [EndsOpen]

theorem Counted.nil : Counted 0 [] where
  open_le _ := Int.le_refl 0
  awaits _ _ := .start
  closed_le _ := by decide
  complete closed _ := absurd (by simp [EndsOpen]) closed

/-- An operator behind a level that is counted leaves it counted. -/
theorem Counted.operator {separators : Nat} {front : List Token} (op : Operator)
    (counted : Counted separators front)
    : Counted separators (front ++ [.operator op]) := by
  have weight : net (front ++ [.operator op]) = net front - 1 := by
    simp [Token.weight, Int.sub_eq_add_neg]
  have bound := counted.le
  have ends := endsOpen_operator front op
  refine ⟨fun _ => by omega, fun _ full => ?_, fun closed => absurd ends closed,
    fun closed => absurd ends closed⟩
  exact .operator op (counted.arguments (by omega))

/-- A separator behind a level that is counted begins another argument. -/
theorem Counted.separator {separators : Nat} {front : List Token}
    (counted : Counted separators front)
    : Counted (separators + 1) (front ++ [.separator]) := by
  have weight : net (front ++ [.separator]) = net front := by simp [Token.weight]
  have bound := counted.le
  have ends := endsOpen_separator front
  refine ⟨fun _ => by omega, fun _ full => ?_, fun closed => absurd ends closed,
    fun closed => absurd ends closed⟩
  exact .separator (counted.arguments (by omega))

/-- An operand leaves at most one value, and one only if it is an item. -/
theorem Counted.operand {separators : Nat} {front w : List Token}
    (counted : Counted separators front) (starts : EndsOpen front) (bound : net w ≤ 1)
    (item : net w = 1 → IsItem w) (closed : ¬ EndsOpen (front ++ w))
    : Counted separators (front ++ w) := by
  have weight := net_append front w
  have front_bound := counted.open_le starts
  refine ⟨fun ends => absurd ends closed, fun ends => absurd ends closed, fun _ => by omega,
    fun _ full => ?_⟩
  exact (counted.awaits starts (by omega)).item (item (by omega))

end Calculator
