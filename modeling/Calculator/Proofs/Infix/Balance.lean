import Mathlib.Tactic.ByContra
import Calculator.Proofs.Postfix.Nesting

/-! Balanced brackets. A token list is balanced if counting its brackets never falls below zero and
ends there, and exactly then its layout has a partner for every bracket.
-/

namespace Calculator.Infix

open Postfix (depthBehind)

/-- Every bracket that closes was opened before, and none is left open. -/
def Balanced (tokens : List Token) : Prop :=
  tokens.foldlM depthBehind 0 = some 0

instance (tokens : List Token) : Decidable (Balanced tokens) :=
  inferInstanceAs (Decidable (_ = _))

/-- How many brackets are open behind a token. Outside all brackets separators are admitted on
demand only.
-/
def levelBehind (separators : Bool) (level : Nat) (t : Token) : Option Nat :=
  if t = .separator ∧ level = 0 ∧ separators = false then none else depthBehind level t

/-- Every bracket has its partner, and no separator stands outside all brackets. -/
def Enclosable (tokens : List Token) : Prop :=
  tokens.foldlM (levelBehind false) 0 = some 0

instance (tokens : List Token) : Decidable (Enclosable tokens) :=
  inferInstanceAs (Decidable (_ = _))

theorem levelBehind_true
    : levelBehind true = depthBehind := by
  funext level t
  simp [levelBehind]

theorem levelBehind_of_ne_separator {t : Token} (other : t ≠ .separator) (separators : Bool)
    (level : Nat)
    : levelBehind separators level t = depthBehind level t := by
  simp [levelBehind, other]

@[simp]
theorem levelBehind_openBracket (separators : Bool) (level : Nat)
    : levelBehind separators level .openBracket = some (level + 1) :=
  levelBehind_of_ne_separator (by simp) separators level

@[simp]
theorem levelBehind_closeBracket (separators : Bool) (level : Nat)
    : levelBehind separators (level + 1) .closeBracket = some level :=
  levelBehind_of_ne_separator (by simp) separators (level + 1)

/-- Counting with a check for separators counts alike. -/
theorem depthBehind_of_levelBehind {separators : Bool} {level behind : Nat} {t : Token}
    (counted : levelBehind separators level t = some behind)
    : depthBehind level t = some behind := by
  unfold levelBehind at counted
  split at counted
  · cases counted
  · exact counted

/-- A token that is no bracket leaves the level as it is. -/
theorem depthBehind_of_ne {t : Token} (opens : t ≠ .openBracket) (closes : t ≠ .closeBracket)
    (level : Nat)
    : depthBehind level t = some level := by
  cases t <;> first | rfl | contradiction

--------------------------------------------------------------------------------
-- Nested groups
--------------------------------------------------------------------------------

/-- Tokens and groups of nested tokens behind each other. The flag tells whether a separator may
stand between them.
-/
inductive Nested : Bool → List Token → Prop where
  | nil (separators : Bool) : Nested separators []
  | token {separators : Bool} {t : Token} {rest : List Token} (opens : t ≠ .openBracket)
    (closes : t ≠ .closeBracket) (separates : t = .separator → separators = true)
    (nested : Nested separators rest)
    : Nested separators (t :: rest)
  | group {separators : Bool} {inner rest : List Token} (inner_nested : Nested true inner)
    (nested : Nested separators rest)
    : Nested separators (.openBracket :: inner ++ .closeBracket :: rest)

/-- Behind nested tokens as many brackets are open as in front of them. Inside a bracket any
separator is admitted.
-/
theorem Nested.foldlM_levelBehind {separators : Bool} {tokens : List Token}
    (nested : Nested separators tokens) {outside : Bool} {level : Nat}
    (admits : separators = true → outside = true ∨ 0 < level)
    : tokens.foldlM (levelBehind outside) level = some level := by
  induction nested generalizing level with
  | nil => rfl
  | @token separators t rest opens closes separates nested ih =>
      have same : levelBehind outside level t = some level := by
        have admitted : ¬(t = .separator ∧ level = 0 ∧ outside = false) := by
          rintro ⟨separator, zero, free⟩
          rcases admits (separates separator) with same | positive
          · simp [free] at same
          · omega
        rw [levelBehind, if_neg admitted, depthBehind_of_ne opens closes]
      rw [List.foldlM_cons, same]
      exact ih admits
  | @group separators inner rest inner_nested nested inner_ih ih =>
      have inside := @inner_ih (level + 1) fun _ => .inr (Nat.succ_pos level)
      have behind := ih admits
      simp [inside, behind]

/-- What is left to close `level` brackets and then to nest. -/
inductive Closing (separators : Bool) : Nat → List Token → Prop where
  | nested {tokens : List Token} (nested : Nested separators tokens) : Closing separators 0 tokens
  | close {level : Nat} {inner rest : List Token} (inner_nested : Nested true inner)
    (closing : Closing separators level rest)
    : Closing separators (level + 1) (inner ++ .closeBracket :: rest)

/-- Tokens that close all open brackets do so one by one. Witness: induction from the right; a
bracket that opens has the next one that closes as its partner.
-/
theorem closing_of_foldlM {separators : Bool} {tokens : List Token} {level : Nat}
    (counted : tokens.foldlM (levelBehind separators) level = some 0)
    : Closing separators level tokens := by
  induction tokens generalizing level with
  | nil =>
      cases counted
      exact .nested (.nil separators)
  | cons t rest ih =>
      obtain ⟨behind, first, later⟩ := Option.bind_eq_some_iff.mp (by simpa using counted)
      have closing := ih later
      have depth := depthBehind_of_levelBehind first
      by_cases opens : t = .openBracket
      · subst opens
        cases depth
        cases closing with
        | close inner_nested closing =>
            cases closing with
            | nested nested => exact .nested (.group inner_nested nested)
            | close next_nested closing =>
                have grouped := Nested.group inner_nested next_nested
                simpa using Closing.close grouped closing
      · by_cases closes : t = .closeBracket
        · subst closes
          cases level with
          | zero => cases depth
          | succ level =>
              cases depth
              exact .close (.nil true) closing
        · obtain rfl : level = behind := by
            simpa [depthBehind_of_ne opens closes] using depth
          cases closing with
          | nested nested =>
              refine .nested (.token opens closes (fun separator => ?_) nested)
              by_contra free
              simp [levelBehind, separator, free] at first
          | close inner_nested closing =>
              exact .close (.token opens closes (fun _ => rfl) inner_nested) closing

/-- Nested tokens are those whose brackets are counted from none to none. -/
theorem nested_iff_foldlM {separators : Bool} {tokens : List Token}
    : Nested separators tokens ↔ tokens.foldlM (levelBehind separators) 0 = some 0 := by
  constructor
  · exact fun nested => nested.foldlM_levelBehind .inl
  · intro counted
    cases closing_of_foldlM counted with
    | nested nested => exact nested

theorem nested_iff_balanced {tokens : List Token}
    : Nested true tokens ↔ Balanced tokens := by
  rw [nested_iff_foldlM, levelBehind_true, Balanced]

theorem nested_iff_enclosable {tokens : List Token}
    : Nested false tokens ↔ Enclosable tokens :=
  nested_iff_foldlM

theorem Nested.balanced {separators : Bool} {tokens : List Token}
    (nested : Nested separators tokens)
    : Balanced tokens :=
  nested_iff_balanced.mp (nested_iff_foldlM.mpr (nested.foldlM_levelBehind fun _ => .inl rfl))

theorem Enclosable.balanced {tokens : List Token} (enclosable : Enclosable tokens)
    : Balanced tokens :=
  (nested_iff_enclosable.mpr enclosable).balanced

/-- Balanced tokens leave the number of open brackets as it is. -/
theorem Balanced.foldlM_depthBehind {tokens : List Token} (balanced : Balanced tokens)
    (level : Nat)
    : tokens.foldlM depthBehind level = some level := by
  rw [← levelBehind_true]
  exact (nested_iff_balanced.mpr balanced).foldlM_levelBehind .inl

--------------------------------------------------------------------------------
-- Layouts of balanced tokens
--------------------------------------------------------------------------------

namespace Layout

/-- Where every bracket has its partner, the tokens are nested. -/
theorem Closed.nested {l : Layout} (closed : l.Closed)
    : Nested true l.tokens := by
  induction l with
  | nil => exact .nil true
  | token t rest ih =>
      obtain ⟨opens, closes, closed⟩ := closed
      exact .token opens closes (fun _ => rfl) (ih closed)
  | group callee inner rest inner_ih ih =>
      have group := Nested.group (inner_ih closed.1) (ih closed.2)
      cases callee with
      | none => simpa using group
      | some f => simpa using group.token (by simp) (by simp) (by simp)

/-- A token stands alone if it is neither a bracket nor a function in front of a group. -/
theorem Reading.read_of_alone {t : Token} {level : Layout} (opens : t ≠ .openBracket)
    (closes : t ≠ .closeBracket)
    (alone : ∀ f inner rest, t = .function f → level ≠ group none inner rest)
    (outer : List Layout)
    : read t ⟨level, outer⟩ = ⟨token t level, outer⟩ := by
  cases t with
  | openBracket | closeBracket => contradiction
  | function f =>
      cases level with
      | nil | token _ _ => rfl
      | group callee inner rest =>
          cases callee with
          | none => exact absurd rfl (alone f inner rest rfl)
          | some g => rfl
  | number x | constant x | operator op | separator => rfl

/-- Reading nested tokens finds their groups, whatever is on the right of them. Witness: induction
on the nesting; a group is read between the two brackets that enclose it.
-/
theorem exists_foldr_read {separators : Bool} {tokens : List Token}
    (nested : Nested separators tokens)
    : ∃ l : Layout, ∀ outer, tokens.foldr Reading.read ⟨nil, outer⟩ = ⟨l, outer⟩ := by
  induction nested with
  | nil => exact ⟨nil, fun _ => rfl⟩
  | @token separators t rest opens closes separates nested ih =>
      obtain ⟨l, reads⟩ := ih
      by_cases call : ∃ f inner behind, t = .function f ∧ l = group none inner behind
      · obtain ⟨f, inner, behind, rfl, rfl⟩ := call
        refine ⟨group (some f) inner behind, fun outer => ?_⟩
        rw [List.foldr_cons, reads]
        rfl
      · refine ⟨token t l, fun outer => ?_⟩
        rw [List.foldr_cons, reads]
        refine Reading.read_of_alone opens closes (fun f inner behind function same => ?_) outer
        exact call ⟨f, inner, behind, function, same⟩
  | @group separators inner rest inner_nested nested inner_ih ih =>
      obtain ⟨inside, reads_inside⟩ := inner_ih
      obtain ⟨behind, reads_behind⟩ := ih
      refine ⟨group none inside behind, fun outer => ?_⟩
      simp [List.foldr_append, reads_behind, reads_inside, Reading.read]

/-- The layout of nested tokens is what reading them puts in front of nothing. -/
theorem foldr_read_of_nested {separators : Bool} {tokens : List Token}
    (nested : Nested separators tokens) (outer : List Layout)
    : tokens.foldr Reading.read ⟨nil, outer⟩ = ⟨ofTokens tokens, outer⟩ := by
  obtain ⟨l, reads⟩ := exists_foldr_read nested
  rw [ofTokens, reads, reads]
  rfl

/-- Brackets around nested tokens make up one group. -/
theorem ofTokens_enclosed {separators : Bool} {tokens : List Token}
    (nested : Nested separators tokens)
    : ofTokens (.openBracket :: tokens ++ [.closeBracket]) = group none (ofTokens tokens) nil := by
  have reads := foldr_read_of_nested nested [nil]
  simp [ofTokens, List.foldr_append, Reading.read, reads, Reading.close]

end Layout

end Calculator.Infix
