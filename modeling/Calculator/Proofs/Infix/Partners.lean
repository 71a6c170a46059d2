import Mathlib.Order.Bounds.Image
import Mathlib.Order.Nat
import Calculator.Proofs.Infix.Brackets

/-! The partners of brackets. The layout of a token list gives each bracket the partner at which the
depth of brackets, counted from there, is zero for the first time, whether the list is balanced or
not.
-/

namespace Calculator.Infix

open Postfix (depthBehind)

/-- The partner of each token of a layout whose first token has the position `first`. Only the
brackets of groups have one.
-/
def Layout.partners : Layout → Nat → List (Option Nat)
  | nil, _ => []
  | token _ rest, first => none :: rest.partners (first + 1)
  | group callee inner rest, first =>
      let opening := first + callee.toList.length
      let closing := opening + 1 + inner.tokens.length
      callee.toList.map (fun _ => none) ++ some closing :: inner.partners (opening + 1)
        ++ some opening :: rest.partners (closing + 1)

/-- The position of the partner that the layout of a token list gives to a token. -/
def partner? (tokens : List Token) (i : Nat) : Option Nat :=
  ((Layout.ofTokens tokens).partners 0)[i]?.join

/-- How many more brackets open than close from position `i` up to position `j`. -/
def depthBetween (tokens : List Token) (i j : Nat) : Int :=
  let part := Span.segment ⟨i, j + 1⟩ tokens
  part.count .openBracket - part.count .closeBracket

/-- The positions behind `i` at which the depth counted from there is zero. -/
def returnsBehind (tokens : List Token) (i : Nat) : Set Nat :=
  {j | i < j ∧ j < tokens.length ∧ depthBetween tokens i j = 0}

/-- The positions in front of `i` at which the depth counted from there is zero. -/
def returnsBefore (tokens : List Token) (i : Nat) : Set Nat :=
  {j | j < i ∧ depthBetween tokens j i = 0}

--------------------------------------------------------------------------------
-- Partners of a layout
--------------------------------------------------------------------------------

/-- The position of the partner that is found from a token with others around it. -/
def scannedPartner? (before : List Token) (t : Token) (after : List Token) : Option Nat :=
  match t with
  | .openBracket => (groupLength? after).map (before.length + ·)
  | .closeBracket => (groupBefore? before).map (before.length - ·)
  | _ => none

namespace Layout

/-- A bracket of a layout that is not one of a group has no partner. -/
theorem Placed.scannedPartner?_token {before after : List Token} {t : Token} {rest : Layout}
    (placed : Placed before (token t rest) after)
    : scannedPartner? before t (rest.tokens ++ after) = none := by
  cases t with
  | openBracket => simp [scannedPartner?, placed.groupLength?_openBracket]
  | closeBracket =>
      rcases placed.left with opened | alone
      · exact absurd rfl opened.1
      · simp [scannedPartner?, groupBefore?, alone]
  | number x | constant c | function f | operator op | separator => rfl

/-- The partners of a layout are those that are found from its tokens. Witness: induction on the
layout; around the tokens of a group, which are balanced, the brackets find each other.
-/
theorem partners_eq_along {l : Layout} {before after : List Token} (placed : l.Placed before after)
    : l.partners before.length = along scannedPartner? before l.tokens after := by
  induction l generalizing before after with
  | nil => rfl
  | token t rest ih =>
      have behind := ih placed.behind_token
      simp only [List.length_cons] at behind
      simp [partners, along, placed.scannedPartner?_token, behind]
  | group callee inner rest inner_ih ih =>
      let front := (callee.map Token.function).toList
      have opening : before.length + callee.toList.length = (front ++ before).length := by
        cases callee <;> simp [front]
      have closing : (front ++ before).length + 1 + inner.tokens.length + 1
          = ((groupTokens callee inner.tokens).reverse ++ before).length := by
        simp [front, groupTokens]
        omega
      have called : callee.toList.map (fun _ => none)
          = along scannedPartner? before front
            (.openBracket :: inner.tokens ++ .closeBracket :: rest.tokens ++ after) := by
        cases callee <;> rfl
      have same : front.reverse = front := by
        cases callee <;> rfl
      have opens := groupLength?_of_balanced placed.balanced_inner (rest.tokens ++ after)
      have closes := groupBefore?_of_balanced placed.balanced_inner (front ++ before)
      have inside : _ = along scannedPartner? (.openBracket :: (front ++ before)) _ _ :=
        inner_ih placed.inside
      have behind := ih placed.behind_group
      rw [← closing] at behind
      rw [List.length_cons] at inside
      rw [partners, opening, called, inside, behind, tokens_group]
      simp [along, along_append, scannedPartner?, opens, closes, same, groupTokens, front]
      omega

end Layout

/-- What a function of the tokens around each token gives at one of them. -/
theorem getElem?_along {α : Type} (f : List Token → Token → List Token → α)
    (front : List Token) (t : Token) (back : List Token)
    : (along f [] (front ++ t :: back) [])[front.length]? = some (f front.reverse t back) := by
  rw [along_append, List.getElem?_append_right (by simp)]
  simp [along]

theorem partners_ofTokens (tokens : List Token)
    : (Layout.ofTokens tokens).partners 0 = along scannedPartner? [] tokens [] := by
  simpa using Layout.partners_eq_along (Layout.placed_ofTokens tokens)

theorem partner?_append (front : List Token) (t : Token) (back : List Token)
    : partner? (front ++ t :: back) front.length = scannedPartner? front.reverse t back := by
  rw [partner?, partners_ofTokens, getElem?_along]
  rfl

theorem partner?_eq_none {tokens : List Token} {i : Nat} (le : tokens.length ≤ i)
    : partner? tokens i = none := by
  rw [partner?, partners_ofTokens, List.getElem?_eq_none (by simpa using le)]
  rfl

/-- A position of a list is behind some tokens, at a token. -/
theorem exists_append_of_lt {tokens : List Token} {i : Nat} (lt : i < tokens.length)
    : ∃ front t back, tokens = front ++ t :: back ∧ i = front.length :=
  ⟨tokens.take i, tokens[i], tokens.drop (i + 1), by simp, by simp; omega⟩

/-- The partners of the layout are the pairs of brackets around balanced tokens. -/
theorem partner?_eq_some_iff {tokens : List Token} {i j : Nat}
    : partner? tokens i = some j ↔ Partners tokens i j ∨ Partners tokens j i := by
  constructor
  · intro found
    have lt : i < tokens.length := by
      by_contra outside
      rw [partner?_eq_none (by omega)] at found
      cases found
    obtain ⟨front, t, back, rfl, rfl⟩ := exists_append_of_lt lt
    rw [partner?_append] at found
    cases t with
    | openBracket =>
        obtain ⟨n, group, rfl⟩ := Option.map_eq_some_iff.mp found
        obtain ⟨inner, rest, rfl, rfl, counted⟩ := exists_of_groupLength? group
        exact .inl ⟨front, inner, rest, rfl, counted, rfl, by simp; omega⟩
    | closeBracket =>
        obtain ⟨n, group, rfl⟩ := Option.map_eq_some_iff.mp found
        obtain ⟨inner, rest, parts, rfl, counted⟩ := exists_of_groupBefore? group
        obtain rfl : front = rest.reverse ++ .openBracket :: inner := by
          simpa using congrArg List.reverse parts
        refine .inr ⟨rest.reverse, inner, back, by simp, counted, ?_, by simp; omega⟩
        simp
        omega
    | number x | constant c | function f | operator op | separator => cases found
  · rintro (⟨front, inner, back, rfl, balanced, rfl, rfl⟩
      | ⟨front, inner, back, rfl, balanced, rfl, rfl⟩)
    · rw [partner?_append]
      simp [scannedPartner?, groupLength?_of_balanced balanced]
      omega
    · have found := partner?_append (front ++ .openBracket :: inner) .closeBracket back
      have position
          : front.length + 1 + inner.length = (front ++ Token.openBracket :: inner).length := by
        simp
        omega
      rw [List.append_assoc, List.cons_append, ← position] at found
      rw [found]
      simp [scannedPartner?, groupBefore?_of_balanced balanced]
      omega

/-- Only brackets have partners. -/
theorem bracket_of_partner? {tokens : List Token} {i j : Nat} (found : partner? tokens i = some j)
    : tokens[i]? = some .openBracket ∨ tokens[i]? = some .closeBracket := by
  rcases partner?_eq_some_iff.mp found with ⟨front, inner, back, rfl, _, rfl, rfl⟩
    | ⟨front, inner, back, rfl, _, rfl, rfl⟩
  · exact .inl (by simp)
  · refine .inr ?_
    rw [Nat.add_assoc, List.getElem?_append_right (Nat.le_add_right ..), Nat.add_sub_cancel_left,
      Nat.add_comm, List.getElem?_cons_succ]
    simp

/-- Partners are partners of each other. -/
theorem partner?_symm {tokens : List Token} {i j : Nat} (found : partner? tokens i = some j)
    : partner? tokens j = some i :=
  partner?_eq_some_iff.mpr (partner?_eq_some_iff.mp found).symm

/-- Brackets between partners have their own partners there. -/
theorem partner?_between {tokens : List Token} {i j k l : Nat} (outer : partner? tokens i = some j)
    (inner : partner? tokens k = some l) (behind : i < k) (front : k < j)
    : i < l ∧ l < j := by
  obtain ⟨first, within, back, rfl, balanced, rfl, rfl⟩ : Partners tokens i j := by
    rcases partner?_eq_some_iff.mp outer with pair | ⟨_, _, _, _, _, rfl, rfl⟩
    · exact pair
    · omega
  have balanced_part : Balanced (.openBracket :: within ++ [.closeBracket]) :=
    (nested_iff_balanced.mpr balanced).enclosed.balanced
  let part : List Token := .openBracket :: within ++ [.closeBracket]
  have parts : first ++ .openBracket :: (within ++ .closeBracket :: back)
      = first ++ (part ++ back) := by
    simp [part]
  have stop : first.length + part.length = first.length + 1 + within.length + 1 := by
    simp [part]
    omega
  have holds : Span.Holds ⟨first.length, first.length + part.length⟩ l := by
    have here : Span.Holds ⟨first.length, first.length + part.length⟩ k :=
      ⟨by simp only; omega, by simp only; omega⟩
    rcases partner?_eq_some_iff.mp inner with pair | pair
    · exact (holds_iff_of_partners parts balanced_part pair).mp here
    · exact (holds_iff_of_partners parts balanced_part pair).mpr here
  obtain ⟨starts, stops⟩ := holds
  -- The outer brackets have each other as partners.
  have first_ne : l ≠ first.length := by
    rintro rfl
    have same := outer.symm.trans (partner?_symm inner)
    cases same
    omega
  have last_ne : l ≠ first.length + 1 + within.length := by
    rintro rfl
    have same := (partner?_symm outer).symm.trans (partner?_symm inner)
    cases same
    omega
  simp only at starts stops
  omega

--------------------------------------------------------------------------------
-- Counting the depth
--------------------------------------------------------------------------------

/-- The least number of a set without zero is next to the least one of the numbers in front. -/
theorem isLeast_iff_of_succ {s t : Set Nat} {n : Nat} (zero : 0 ∉ s)
    (succ : ∀ m, m + 1 ∈ s ↔ m ∈ t)
    : IsLeast s n ↔ ∃ m, IsLeast t m ∧ m + 1 = n := by
  constructor
  · rintro ⟨member, least⟩
    cases n with
    | zero => exact absurd member zero
    | succ m =>
        refine ⟨m, ⟨(succ m).mp member, fun k other => ?_⟩, rfl⟩
        exact Nat.le_of_succ_le_succ (least ((succ k).mpr other))
  · rintro ⟨m, ⟨member, least⟩, rfl⟩
    refine ⟨(succ m).mpr member, fun k other => ?_⟩
    cases k with
    | zero => exact absurd other zero
    | succ k => exact Nat.succ_le_succ (least ((succ k).mp other))

/-- How many tokens lead out of `level` more brackets than they lead into. -/
def leadsOut (inward outward : Token) (level : Nat) (tokens : List Token) : Set Nat :=
  {n | n ≤ tokens.length
    ∧ (tokens.take n).count outward = (tokens.take n).count inward + level + 1}

/-- The way to a partner is the shortest one that leads out of all brackets. -/
theorem partnerLength?_eq_some_iff {inward outward : Token} (distinct : inward ≠ outward)
    {level n : Nat} {tokens : List Token}
    : partnerLength? inward outward level tokens = some n
      ↔ IsLeast (leadsOut inward outward level tokens) n := by
  have zero (level : Nat) (tokens : List Token) : 0 ∉ leadsOut inward outward level tokens := by
    simp [leadsOut]
  induction tokens generalizing level n with
  | nil => simp [partnerLength?, IsLeast, leadsOut]
  | cons t rest ih =>
      have step {between : Nat}
          (same
            : ∀ m, m + 1 ∈ leadsOut inward outward level (t :: rest)
                ↔ m ∈ leadsOut inward outward between rest)
          : (partnerLength? inward outward between rest).map (· + 1) = some n
            ↔ IsLeast (leadsOut inward outward level (t :: rest)) n := by
        rw [isLeast_iff_of_succ (zero _ _) same, Option.map_eq_some_iff]
        simp only [ih]
      unfold partnerLength?
      split
      · rename_i leads
        subst leads
        cases level with
        | zero =>
            have one : IsLeast (leadsOut inward t 0 (t :: rest)) 1 := by
              refine ⟨by simp [leadsOut, distinct.symm], fun m member => ?_⟩
              exact Nat.one_le_iff_ne_zero.mpr fun same => zero 0 _ (same ▸ member)
            simp [one.isLeast_iff_eq]
        | succ level =>
            refine step fun m => ?_
            simp [leadsOut, distinct.symm]
            omega
      · rename_i other
        by_cases leads : t = inward
        · subst leads
          rw [if_pos rfl]
          refine step fun m => ?_
          simp [leadsOut, other]
          omega
        · rw [if_neg leads]
          exact step fun m => by simp [leadsOut, other, leads]

/-- Where nothing leads out of all brackets, there is no partner. -/
theorem partnerLength?_eq_none_iff {inward outward : Token} (distinct : inward ≠ outward)
    {level : Nat} {tokens : List Token}
    : partnerLength? inward outward level tokens = none
      ↔ leadsOut inward outward level tokens = ∅ := by
  constructor
  · intro alone
    by_contra leads
    classical
    have least := (Set.nonempty_iff_ne_empty.mpr leads).isLeast_natFind
    rw [(partnerLength?_eq_some_iff distinct).mpr least] at alone
    cases alone
  · intro empty
    by_contra found
    obtain ⟨n, found⟩ := Option.ne_none_iff_exists'.mp found
    have member := ((partnerLength?_eq_some_iff distinct).mp found).1
    rw [empty] at member
    exact member

--------------------------------------------------------------------------------
-- Partners by depth
--------------------------------------------------------------------------------

/-- Behind a bracket the depth is zero where as many tokens lead out of it. -/
theorem returnsBehind_eq (front back : List Token)
    : returnsBehind (front ++ .openBracket :: back) front.length
      = (front.length + ·) '' leadsOut .openBracket .closeBracket 0 back := by
  have depth (n : Nat)
      : depthBetween (front ++ .openBracket :: back) front.length (front.length + n)
        = (back.take n).count .openBracket + 1 - (back.take n).count .closeBracket := by
    have length : front.length + n + 1 - front.length = n + 1 := by omega
    simp [depthBetween, Span.segment, length]
  ext j
  simp only [returnsBehind, leadsOut, Set.mem_ofPred_eq, Set.mem_image]
  constructor
  · rintro ⟨behind, lt, zero⟩
    obtain ⟨n, rfl⟩ := Nat.exists_eq_add_of_le (Nat.le_of_lt behind)
    rw [depth] at zero
    simp only [List.length_append, List.length_cons] at lt
    exact ⟨n, ⟨by omega, by omega⟩, rfl⟩
  · rintro ⟨n, ⟨le, leads⟩, rfl⟩
    have positive : n ≠ 0 := by
      rintro rfl
      simp at leads
    rw [depth]
    simp only [List.length_append, List.length_cons]
    omega

/-- In front of a bracket the depth is zero where as many tokens lead out of it. -/
theorem returnsBefore_eq (front back : List Token)
    : returnsBefore (front ++ .closeBracket :: back) front.length
      = (front.length - ·) '' leadsOut .closeBracket .openBracket 0 front.reverse := by
  have depth {n : Nat} (le : n ≤ front.length)
      : depthBetween (front ++ .closeBracket :: back) (front.length - n) front.length
        = (front.reverse.take n).count .openBracket
          - ((front.reverse.take n).count .closeBracket + 1) := by
    have length
        : front.length + 1 - (front.length - n) = (front.drop (front.length - n)).length + 1 := by
      rw [List.length_drop]
      omega
    have part
        : Span.segment ⟨front.length - n, front.length + 1⟩ (front ++ .closeBracket :: back)
          = (front.reverse.take n).reverse ++ [.closeBracket] := by
      rw [Span.segment, List.drop_append_of_le_length (Nat.sub_le _ _), length,
        List.take_length_add_append]
      simp [List.take_reverse]
    simp [depthBetween, part]
  ext j
  simp only [returnsBefore, leadsOut, Set.mem_ofPred_eq, Set.mem_image, List.length_reverse]
  constructor
  · rintro ⟨before, zero⟩
    obtain ⟨n, le, rfl⟩ : ∃ n, n ≤ front.length ∧ front.length - n = j :=
      ⟨front.length - j, by omega, by omega⟩
    rw [depth le] at zero
    exact ⟨n, ⟨le, by omega⟩, rfl⟩
  · rintro ⟨n, ⟨le, leads⟩, rfl⟩
    have positive : n ≠ 0 := by
      rintro rfl
      simp at leads
    rw [depth le]
    omega

/-- The layout gives a bracket that opens the first position behind it at which the depth counted
from there is zero.
-/
theorem partner?_openBracket {tokens : List Token} {i : Nat}
    (opens : tokens[i]? = some .openBracket)
    : (∀ j, partner? tokens i = some j ↔ IsLeast (returnsBehind tokens i) j)
      ∧ (partner? tokens i = none ↔ returnsBehind tokens i = ∅) := by
  obtain ⟨lt, same⟩ := List.getElem?_eq_some_iff.mp opens
  obtain ⟨front, t, back, rfl, rfl⟩ := exists_append_of_lt lt
  obtain rfl : t = .openBracket := by simpa using same
  have distinct : Token.openBracket ≠ .closeBracket := by simp
  have ascending : StrictMono (front.length + ·) := fun m n lt => Nat.add_lt_add_left lt _
  rw [partner?_append, returnsBehind_eq]
  simp only [scannedPartner?, List.length_reverse, Option.map_eq_some_iff, Option.map_eq_none_iff,
    groupLength?, partnerLength?_eq_some_iff distinct, partnerLength?_eq_none_iff distinct,
    Set.image_eq_empty, and_true]
  intro j
  constructor
  · rintro ⟨n, least, rfl⟩
    exact (StrictMono.map_isLeast ascending).mpr least
  · intro least
    obtain ⟨n, _, rfl⟩ := least.1
    exact ⟨n, (StrictMono.map_isLeast ascending).mp least, rfl⟩

/-- The layout gives a bracket that closes the last position in front of it from which the depth is
zero there.
-/
theorem partner?_closeBracket {tokens : List Token} {i : Nat}
    (closes : tokens[i]? = some .closeBracket)
    : (∀ j, partner? tokens i = some j ↔ IsGreatest (returnsBefore tokens i) j)
      ∧ (partner? tokens i = none ↔ returnsBefore tokens i = ∅) := by
  obtain ⟨lt, same⟩ := List.getElem?_eq_some_iff.mp closes
  obtain ⟨front, t, back, rfl, rfl⟩ := exists_append_of_lt lt
  obtain rfl : t = .closeBracket := by simpa using same
  have distinct : Token.closeBracket ≠ .openBracket := by simp
  have bounded {n : Nat} (member : n ∈ leadsOut .closeBracket .openBracket 0 front.reverse)
      : n ≤ front.length := by
    simpa using member.1
  rw [partner?_append, returnsBefore_eq]
  simp only [scannedPartner?, List.length_reverse, Option.map_eq_some_iff, Option.map_eq_none_iff,
    groupBefore?, partnerLength?_eq_some_iff distinct, partnerLength?_eq_none_iff distinct,
    Set.image_eq_empty, and_true]
  intro j
  constructor
  · rintro ⟨n, ⟨member, least⟩, rfl⟩
    refine ⟨⟨n, member, rfl⟩, ?_⟩
    rintro _ ⟨m, other, rfl⟩
    exact Nat.sub_le_sub_left (least other) _
  · rintro ⟨⟨n, member, rfl⟩, greatest⟩
    refine ⟨n, ⟨member, fun m other => ?_⟩, rfl⟩
    have before := greatest ⟨m, other, rfl⟩
    have n_le := bounded member
    have m_le := bounded other
    simp only at before
    omega

/-- Brackets without a partner stand next to others that have one. -/
example
    : (List.range 6).map
        (partner? [.closeBracket, .openBracket, .openBracket, .constant .pi, .closeBracket,
          .operator .pow])
      = [none, none, some 4, none, some 2, none] := by
  decide

end Calculator.Infix
