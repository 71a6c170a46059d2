import Calculator.Proofs.Infix.Operand
import Calculator.Proofs.Infix.Separation

/-! The parts of a layout between the tokens around them. What the layout has in front of a position
or behind it is what a search through the tokens finds there.
-/

namespace Calculator.Infix

namespace Layout

--------------------------------------------------------------------------------
-- Brackets without a partner
--------------------------------------------------------------------------------

/-- No bracket that closes is without its partner. -/
def Opened : Layout → Prop
  | nil => True
  | token t rest => t ≠ .closeBracket ∧ rest.Opened
  | group _ _ rest => rest.Opened

/-- Of the brackets without a partner, those that close come before those that open. -/
def Sorted : Layout → Prop
  | nil => True
  | token t rest => (t = .openBracket → rest.Opened) ∧ rest.Sorted
  | group _ _ rest => rest.Sorted

theorem Closed.opened {l : Layout} (closed : l.Closed)
    : l.Opened := by
  induction l with
  | nil => trivial
  | token t rest ih => exact ⟨closed.2.1, ih closed.2.2⟩
  | group callee inner rest _ ih => exact ih closed.2

theorem Opened.sorted {l : Layout} (opened : l.Opened)
    : l.Sorted := by
  induction l with
  | nil => trivial
  | token t rest ih => exact ⟨fun _ => opened.2, ih opened.2⟩
  | group callee inner rest _ ih => exact ih opened

theorem Closed.sorted_append {a b : Layout} (closed : a.Closed) (sorted : b.Sorted)
    : (a.append b).Sorted := by
  induction a with
  | nil => exact sorted
  | token t rest ih => exact ⟨fun opens => absurd opens closed.1, ih closed.2.2⟩
  | group callee inner rest _ ih => exact ih closed.2

/-- A bracket that closes is not read as a token. -/
theorem Reading.opened_read (t : Token) {r : Reading} (level_h : r.level.Opened)
    (outer_h : ∀ l ∈ r.outer, l.Opened)
    : (r.read t).level.Opened ∧ ∀ l ∈ (r.read t).outer, l.Opened := by
  unfold read
  split
  · exact ⟨trivial, List.forall_mem_cons.mpr ⟨level_h, outer_h⟩⟩
  · obtain ⟨next_h, outer_h⟩ := List.forall_mem_cons.mp outer_h
    exact ⟨next_h, outer_h⟩
  · exact ⟨level_h, outer_h⟩
  · rename_i closes _ _
    exact ⟨⟨fun same => closes same, level_h⟩, outer_h⟩

/-- Only the outermost level, which is the last one, has brackets that open without a partner. -/
theorem Reading.sorted_close {level : Layout} {outer : List Layout} (matched : Matched level outer)
    (level_h : level.Opened) (outer_h : ∀ l ∈ outer, l.Opened)
    : (close level outer).Sorted := by
  induction outer generalizing level with
  | nil => exact level_h.sorted
  | cons next outer ih =>
      obtain ⟨next_h, outer_h⟩ := List.forall_mem_cons.mp outer_h
      exact matched.1.sorted_append ⟨by simp, ih matched.2 next_h outer_h⟩

/-- The layout of a token list is sorted. Witness: while tokens are read from the right, no
level holds a bracket that closes without a partner.
-/
theorem sorted_ofTokens (tokens : List Token)
    : (ofTokens tokens).Sorted := by
  have opened
      : (tokens.foldr Reading.read ⟨nil, []⟩).level.Opened
        ∧ ∀ l ∈ (tokens.foldr Reading.read ⟨nil, []⟩).outer, l.Opened := by
    induction tokens with
    | nil => exact ⟨trivial, by simp⟩
    | cons t rest ih => exact Reading.opened_read t ih.1 ih.2
  exact Reading.sorted_close (Reading.matched_foldr tokens) opened.1 opened.2

--------------------------------------------------------------------------------
-- Placed layouts
--------------------------------------------------------------------------------

/-- A layout is a part of a larger one, between the tokens in front of it, the nearest one first,
and those behind it. No function in front of it is called on its first group, and its brackets
without a partner have none outside. Behind it the list ends, or the bracket of a group closes.
-/
structure Placed (before : List Token) (l : Layout) (after : List Token) : Prop where
  joined : l.Joined
  matched : l.Matched
  sorted : l.Sorted
  free : l.startsFree = true → before.head?.any Token.isFunction = false
  left : l.Opened ∨ ∀ level, partnerLength? .closeBracket .openBracket level before = none
  right : after = [] ∨ (l.Closed ∧ ∃ rest, after = .closeBracket :: rest)

/-- The whole layout is placed between nothing and nothing. -/
theorem placed_ofTokens (tokens : List Token)
    : Placed [] (ofTokens tokens) [] where
  joined := joined_ofTokens tokens
  matched := matched_ofTokens tokens
  sorted := sorted_ofTokens tokens
  free := fun _ => rfl
  left := .inr fun _ => rfl
  right := .inl rfl

namespace Placed

variable {before after : List Token} {t : Token} {rest inner : Layout} {callee : Option Function}

/-- What stands behind a token is placed there. Witness: behind a bracket that opens for good
none closes, and any other token leaves no more brackets open.
-/
theorem behind_token (placed : Placed before (token t rest) after)
    : Placed (t :: before) rest after where
  joined := placed.joined.2
  matched := placed.matched
  sorted := placed.sorted.2
  free starts := by
    cases function : t.isFunction with
    | false => exact function
    | true =>
        rw [placed.joined.1 function] at starts
        cases starts
  left := by
    rcases placed.left with opened | alone
    · exact .inl opened.2
    · by_cases opens : t = .openBracket
      · exact .inl (placed.sorted.1 opens)
      · refine .inr fun level => ?_
        obtain ⟨between, last⟩ := @exists_depthBehind_eq t level fun same => opens same.1
        rw [groupBefore?_cons last, alone between, Option.map_none]
  right := placed.right.imp id fun closing => ⟨closing.1.2.2, closing.2⟩

theorem balanced_inner (placed : Placed before (group callee inner rest) after)
    : Balanced inner.tokens :=
  Postfix.depthBehind_of_closed placed.matched.1 0

/-- What stands behind a group is placed there. Witness: the group is balanced, so a scan to the
left passes it.
-/
theorem behind_group (placed : Placed before (group callee inner rest) after)
    : Placed ((groupTokens callee inner.tokens).reverse ++ before) rest after where
  joined := placed.joined.2
  matched := placed.matched.2
  sorted := placed.sorted
  free _ := by simp [groupTokens, Token.isFunction]
  left := by
    rcases placed.left with opened | alone
    · exact .inl opened
    · refine .inr fun level => ?_
      have nested := nested_group (nested_iff_balanced.mpr placed.balanced_inner) callee
      rw [groupBefore?_append (nested.balanced.foldlM_depthBehind level), alone level,
        Option.map_none]
  right := placed.right.imp id fun closing => ⟨closing.1.2, closing.2⟩

/-- What a group encloses is placed between its two brackets. -/
theorem inside (placed : Placed before (group callee inner rest) after)
    : Placed (.openBracket :: ((callee.map Token.function).toList ++ before)) inner
      (.closeBracket :: (rest.tokens ++ after)) where
  joined := placed.joined.1
  matched := placed.matched.1.matched
  sorted := placed.matched.1.opened.sorted
  free _ := rfl
  left := .inl placed.matched.1.opened
  right := .inr ⟨placed.matched.1, _, rfl⟩

end Placed

--------------------------------------------------------------------------------
-- Operands of placed layouts
--------------------------------------------------------------------------------

/-- Only where a bracket opens, it can be without its partner. -/
theorem startsUnmatched_of_head? {l : Layout} (starts : l.tokens.head? ≠ some .openBracket)
    : l.startsUnmatched = false := by
  cases l with
  | nil | group _ _ _ => rfl
  | token t rest =>
      cases t with
      | openBracket => exact absurd rfl starts
      | _ => rfl

/-- A bracket that opens in front of a layout without closing ones has no partner there. -/
theorem Opened.groupLength? {l : Layout} (opened : l.Opened) (matched : l.Matched) (level : Nat)
    : partnerLength? .openBracket .closeBracket level l.tokens = none := by
  induction l generalizing level with
  | nil => rfl
  | token t rest ih =>
      obtain ⟨closes, opened⟩ := opened
      obtain ⟨between, first⟩ := @exists_depthBehind t level fun same => closes same.1
      rw [tokens_token, groupLength?_cons first, ih opened matched between, Option.map_none]
  | group callee inner rest _ ih =>
      have inside : Nested true inner.tokens := matched.1.nested
      have nested := nested_group inside callee
      rw [tokens_group_append, groupLength?_append (nested.balanced.foldlM_depthBehind level),
        ih opened matched.2 level, Option.map_none]

namespace Placed

variable {before after : List Token} {t : Token} {rest inner : Layout} {callee : Option Function}

/-- A group is the operand where it begins, together with its function. -/
theorem operandLength?_group (placed : Placed before (group callee inner rest) after)
    : operandLength? (groupTokens callee inner.tokens ++ (rest.tokens ++ after))
      = some (groupTokens callee inner.tokens).length := by
  have partner := groupLength?_of_balanced placed.balanced_inner
  cases callee with
  | none => simp [groupTokens, operandLength?, partner]
  | some f => simp [groupTokens, operandLength?, partner]

/-- A group is the operand where it ends, together with its function. -/
theorem operandBefore?_group (placed : Placed before (group callee inner rest) after)
    : operandBefore? ((groupTokens callee inner.tokens).reverse ++ before)
      = some (groupTokens callee inner.tokens).length := by
  have partner := groupBefore?_of_balanced placed.balanced_inner
  cases callee with
  | none =>
      have free := placed.free rfl
      simp [groupTokens, operandBefore?, partner, getElem?_reverse_append, free]
  | some f => simp [groupTokens, operandBefore?, partner, Token.isFunction]

/-- Behind a layout there is no operand, and no power sign. -/
theorem operandLength?_after (placed : Placed before nil after)
    : operandLength? after = none ∧ after.head? ≠ some (.operator .pow) := by
  rcases placed.right with rfl | ⟨_, rest, rfl⟩
  · exact ⟨rfl, by simp⟩
  · exact ⟨rfl, by simp⟩

/-- Behind a function that is an operand by itself, no bracket opens. -/
theorem head?_ne_openBracket {f : Function}
    (placed : Placed before (token (.function f) rest) after)
    (operand : isOperand (.function f) rest = true)
    : (rest.tokens ++ after).head? ≠ some .openBracket := by
  cases rest with
  | nil => rcases placed.right with rfl | ⟨_, behind, rfl⟩ <;> simp
  | token u rest =>
      rintro ⟨⟩
      cases operand
  | group callee inner rest =>
      cases callee with
      | none =>
          have joined := placed.joined.1 rfl
          cases joined
      | some g => simp

/-- A token that is an operand of the layout is one where it stands. -/
theorem operandLength?_operand (placed : Placed before (token t rest) after)
    (operand : isOperand t rest = true)
    : operandLength? (t :: (rest.tokens ++ after)) = some 1 := by
  cases t with
  | number x | constant c => rfl
  | function f => exact operandLength?_function (placed.head?_ne_openBracket operand)
  | operator op | openBracket | closeBracket | separator => cases operand

/-- A bracket that opens without a partner leads to no operand. -/
theorem groupLength?_openBracket (placed : Placed before (token .openBracket rest) after)
    : Infix.groupLength? (rest.tokens ++ after) = none := by
  rcases placed.right with rfl | ⟨closed, _⟩
  · rw [List.append_nil]
    exact (placed.sorted.1 rfl).groupLength? placed.matched 0
  · exact absurd rfl closed.1

/-- Where a token is neither an operand of the layout nor a sign, none begins. -/
theorem operandLength?_other (placed : Placed before (token t rest) after)
    (other : isOperand t rest = false) (sign : t.isSign = false)
    : operandLength? (t :: (rest.tokens ++ after)) = none := by
  cases t with
  | number x | constant c => cases other
  | function f =>
      obtain ⟨later, rfl⟩ : ∃ later, rest = token .openBracket later := by
        unfold isOperand startsUnmatched at other
        cases rest with
        | nil | group _ _ _ => simp [Token.isFunction] at other
        | token u later => cases u <;> simp_all [Token.isFunction]
      have partner := placed.behind_token.groupLength?_openBracket
      simp [operandLength?, partner]
  | operator op => simp [operandLength?, sign]
  | openBracket => simp [operandLength?, placed.groupLength?_openBracket]
  | closeBracket | separator => rfl

theorem operandBefore?_operand (operand : isOperand t rest = true)
    : operandBefore? (t :: before) = some 1 := by
  cases t with
  | number x | constant c | function f => rfl
  | operator op | openBracket | closeBracket | separator => cases operand

/-- Where a token is no operand of the layout, none ends, unless a bracket opens behind it. -/
theorem operandBefore?_other (placed : Placed before (token t rest) after)
    (other : isOperand t rest = false) (starts : rest.startsUnmatched = false)
    : operandBefore? (t :: before) = none := by
  cases t with
  | number x | constant c => cases other
  | function f => simp [isOperand, Token.isFunction, starts] at other
  | closeBracket =>
      rcases placed.left with opened | alone
      · exact absurd rfl opened.1
      · simp [operandBefore?, groupBefore?, alone]
  | operator op | openBracket | separator => rfl

end Placed

end Layout

end Calculator.Infix
