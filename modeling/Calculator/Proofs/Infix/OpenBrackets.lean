import Calculator.Proofs.Infix.Operand
import Calculator.Proofs.Postfix.Order

/-! Brackets that are left open. Tokens further behind stand inside each of them, and the separators
that belong to one are those outside all brackets behind it.
-/

namespace Calculator

namespace Infix

open Postfix (depthBehind)

/-- What stands behind each bracket that opens without a partner, from the outside to the inside. -/
def openContents : List Token → List (List Token)
  | [] => []
  | t :: rest =>
      if t = .openBracket ∧ groupLength? rest = none then
        rest :: openContents rest
      else
        openContents rest

/-- How many separators stand outside all brackets, of which `level` are open in front. Behind a
bracket that leads out of all of them nothing is counted.
-/
def outerSeparators : Nat → List Token → Nat
  | _, [] => 0
  | level, t :: rest =>
      match depthBehind level t with
      | none => 0
      | some behind =>
          outerSeparators behind rest + if level = 0 ∧ t = .separator then 1 else 0

--------------------------------------------------------------------------------
-- Counting to the end
--------------------------------------------------------------------------------

section

variable {tokens : List Token} {level behind : Nat} {separators : Bool}

/-- Where no bracket leads out, the brackets can be counted to the end. -/
theorem exists_foldlM_depthBehind
    (inside : partnerLength? .openBracket .closeBracket level tokens = none)
    : ∃ behind, tokens.foldlM depthBehind level = some behind := by
  induction tokens generalizing level with
  | nil => exact ⟨level, rfl⟩
  | cons t rest ih =>
      by_cases partner : t = .closeBracket ∧ level = 0
      · obtain ⟨rfl, rfl⟩ := partner
        cases inside
      · obtain ⟨between, first⟩ := exists_depthBehind partner
        rw [groupLength?_cons first, Option.map_eq_none_iff] at inside
        obtain ⟨behind, later⟩ := ih inside
        exact ⟨behind, by simp [first, later]⟩

theorem groupLength?_of_foldlM (counted : tokens.foldlM depthBehind level = some behind)
    : partnerLength? .openBracket .closeBracket level tokens = none := by
  have passed := groupLength?_append counted []
  rwa [List.append_nil] at passed

/-- The separators at one level are counted part by part, with the depth behind the first part. -/
theorem outerSeparators_append (counted : tokens.foldlM depthBehind level = some behind)
    (more : List Token)
    : outerSeparators level (tokens ++ more)
      = outerSeparators level tokens + outerSeparators behind more := by
  induction tokens generalizing level with
  | nil =>
      cases counted
      simp [outerSeparators]
  | cons t rest ih =>
      obtain ⟨between, first, later⟩ := Option.bind_eq_some_iff.mp (by simpa using counted)
      simp only [List.cons_append, outerSeparators, first, ih later]
      omega

/-- Inside a bracket nested tokens have no separators outside of it. -/
theorem outerSeparators_of_nested (nested : Nested separators tokens) (level : Nat)
    : outerSeparators (level + 1) tokens = 0 := by
  induction nested generalizing level with
  | nil => rfl
  | token opens closes _ _ ih =>
      simp [outerSeparators, depthBehind_of_ne opens closes, ih]
  | @group separators inner rest inner_nested _ inner_ih ih =>
      have counted := inner_nested.balanced.foldlM_depthBehind (level + 2)
      have inside := outerSeparators_append counted (.closeBracket :: rest)
      simp [outerSeparators, depthBehind, inside, inner_ih, ih]

--------------------------------------------------------------------------------
-- Adding tokens behind
--------------------------------------------------------------------------------

theorem openContents_of_ne {t : Token} (other : t ≠ .openBracket) (rest : List Token)
    : openContents (t :: rest) = openContents rest :=
  if_neg fun opens => other opens.1

/-- Nested tokens leave no bracket open. Witness: induction on the nesting; the bracket of a group
has its partner.
-/
theorem openContents_of_nested (nested : Nested separators tokens) (behind : List Token)
    : openContents (tokens ++ behind) = openContents behind := by
  induction nested generalizing behind with
  | nil => rfl
  | token opens _ _ _ ih =>
      rw [List.cons_append, openContents_of_ne opens]
      exact ih behind
  | @group separators inner rest inner_nested _ inner_ih ih =>
      have partner := groupLength?_of_balanced inner_nested.balanced (rest ++ behind)
      have opened
          : openContents (.openBracket :: (inner ++ .closeBracket :: (rest ++ behind)))
            = openContents (inner ++ .closeBracket :: (rest ++ behind)) :=
        if_neg fun alone => by
          rw [partner] at alone
          cases alone.2
      have closed := openContents_of_ne (t := .closeBracket) (by simp) (rest ++ behind)
      rw [inner_ih, closed, ih] at opened
      simpa using opened

/-- A bracket keeps its partner, and none is found among tokens that close no bracket in front. -/
theorem groupLength?_append_eq_none_iff {more : List Token}
    (inside : ∀ level, ∃ behind, more.foldlM depthBehind level = some behind)
    : groupLength? (tokens ++ more) = none ↔ groupLength? tokens = none := by
  constructor
  · intro alone
    by_contra found
    obtain ⟨n, found⟩ := Option.ne_none_iff_exists'.mp found
    obtain ⟨inner, later, rfl, _, counted⟩ := exists_of_groupLength? found
    have balanced : Balanced inner := counted
    rw [List.append_assoc, List.cons_append, groupLength?_of_balanced balanced] at alone
    cases alone
  · intro alone
    obtain ⟨between, counted⟩ := exists_foldlM_depthBehind alone
    obtain ⟨behind, later⟩ := inside between
    exact groupLength?_of_foldlM (by rw [List.foldlM_append, counted]; exact later)

/-- Tokens that close no bracket in front stand inside all those that are open there. -/
theorem openContents_append {more : List Token}
    (inside : ∀ level, ∃ behind, more.foldlM depthBehind level = some behind)
    : openContents (tokens ++ more)
      = (openContents tokens).map (· ++ more) ++ openContents more := by
  induction tokens with
  | nil => rfl
  | cons t rest ih =>
      have alike : groupLength? (rest ++ more) = none ↔ groupLength? rest = none :=
        groupLength?_append_eq_none_iff inside
      by_cases opens : t = .openBracket ∧ groupLength? rest = none
      · simp [openContents, alike, opens, ih]
      · simp [openContents, alike, opens, ih]

/-- Inside a bracket that is left open, the brackets can be counted to the end. -/
theorem exists_foldlM_of_mem_openContents {content : List Token}
    (member : content ∈ openContents tokens)
    : ∃ behind, content.foldlM depthBehind 0 = some behind := by
  induction tokens with
  | nil => cases member
  | cons t rest ih =>
      unfold openContents at member
      split at member
      · rename_i alone
        rcases List.mem_cons.mp member with rfl | member
        · exact exists_foldlM_depthBehind alone.2
        · exact ih member
      · exact ih member

end

--------------------------------------------------------------------------------
-- Separators of the brackets that are left open
--------------------------------------------------------------------------------

/-- How many separators stand directly inside each bracket that is left open, from the outside to
the inside.
-/
def openSeparators (tokens : List Token) : List Nat :=
  (openContents tokens).map (outerSeparators 0)

/-- Nested tokens leave no bracket open. -/
theorem openSeparators_of_nested {separators : Bool} {tokens : List Token}
    (nested : Nested separators tokens)
    : openSeparators tokens = [] := by
  have open_none := openContents_of_nested nested []
  rw [List.append_nil] at open_none
  rw [openSeparators, open_none]
  rfl

/-- Tokens behind that have no separators of their own belong to no bracket in front. -/
theorem openSeparators_append {tokens more : List Token}
    (inside
      : ∀ level, (∃ behind, more.foldlM depthBehind level = some behind)
          ∧ outerSeparators level more = 0)
    : openSeparators (tokens ++ more) = openSeparators tokens ++ openSeparators more := by
  have kept
      : (openContents tokens).map (outerSeparators 0 ∘ (· ++ more))
        = (openContents tokens).map (outerSeparators 0) := by
    refine List.map_congr_left fun content member => ?_
    obtain ⟨behind, counted⟩ := exists_foldlM_of_mem_openContents member
    rw [Function.comp_apply, outerSeparators_append counted, (inside behind).2, Nat.add_zero]
  simp only [openSeparators, openContents_append fun level => (inside level).1, List.map_append,
    List.map_map, kept]

theorem openSeparators_append_function (tokens : List Token) (f : Function)
    : openSeparators (tokens ++ [.function f]) = openSeparators tokens := by
  have nested : Nested false [.function f] := nested_function f
  rw [openSeparators_append fun level => ⟨⟨level, rfl⟩, ?_⟩, openSeparators_of_nested nested,
    List.append_nil]
  simp [outerSeparators, depthBehind]

end Infix

open Infix

namespace Arranged

variable {separators : Nat} {w : List Token}

theorem nested (arranged : Arranged separators w)
    : Nested true w :=
  nested_iff_balanced.mpr (arranged.foldlM_depthBehind 0)

/-- The separators that an arranged level counts are those outside its brackets. -/
theorem outerSeparators_eq (arranged : Arranged separators w)
    : outerSeparators 0 w = separators := by
  have single (t : Token) : outerSeparators 0 [t] = if t = .separator then 1 else 0 := by
    cases t <;> rfl
  have group {inside : Nat} {inner : List Token} (inner_arranged : Arranged inside inner)
      : outerSeparators 0 (.openBracket :: inner ++ [.closeBracket]) = 0 := by
    have counted := outerSeparators_append (inner_arranged.foldlM_depthBehind 1) [.closeBracket]
    have inner_none := outerSeparators_of_nested inner_arranged.nested 0
    simp [outerSeparators, Postfix.depthBehind, counted, inner_none]
  induction arranged with
  | nil => rfl
  | @value separators front t value arranged ih =>
      have other : t ≠ .separator := by
        rintro rfl
        cases value
      rw [outerSeparators_append (arranged.foldlM_depthBehind 0), ih, single, if_neg other,
        Nat.add_zero]
  | bare f arranged ih | operator op arranged ih | separator arranged ih =>
      rw [outerSeparators_append (arranged.foldlM_depthBehind 0), ih, single]
      simp
  | call f arranged inner_arranged _ ih _ =>
      rw [outerSeparators_append (arranged.foldlM_depthBehind 0), ih, List.cons_append]
      simpa [outerSeparators, Postfix.depthBehind] using group inner_arranged
  | group arranged _ inner_arranged _ ih _ =>
      rw [outerSeparators_append (arranged.foldlM_depthBehind 0), ih, group inner_arranged,
        Nat.add_zero]

/-- An arranged level leaves only the bracket in front of it open, with its own separators. -/
theorem openSeparators_append_openBracket (arranged : Arranged separators w) (before : List Token)
    : openSeparators (before ++ .openBracket :: w) = openSeparators before ++ [separators] := by
  have counted (level : Nat) := arranged.foldlM_depthBehind level
  have alone : openSeparators (.openBracket :: w) = [separators] := by
    have opens : groupLength? w = none := groupLength?_of_foldlM (counted 0)
    have rest : openSeparators w = [] := openSeparators_of_nested arranged.nested
    simp only [openSeparators, List.map_eq_nil_iff] at rest
    simp [openSeparators, openContents, opens, rest, arranged.outerSeparators_eq]
  rw [openSeparators_append fun level => ⟨⟨level + 1, ?_⟩, ?_⟩, alone]
  · simpa [Postfix.depthBehind] using counted (level + 1)
  · simpa [outerSeparators, Postfix.depthBehind] using
      outerSeparators_of_nested arranged.nested level

end Arranged

end Calculator
