import Calculator.Proofs.Infix.Balance
import Calculator.Proofs.Infix.Juxtaposition
import Calculator.Solve

/-! The passes over a token list keep how deep each of its tokens is inside brackets, as seen from
outside the operands they bracket. What was balanced stays balanced, and nothing else becomes so.
-/

namespace Calculator.Infix

--------------------------------------------------------------------------------
-- Nested tokens
--------------------------------------------------------------------------------

namespace Nested

/-- Nested tokens without separators between them keep any level. -/
theorem keeps {tokens : List Token} (nested : Nested false tokens) (separators : Bool) (level : Nat)
    : tokens.foldlM (levelBehind separators) level = some level :=
  nested.foldlM_levelBehind nofun

theorem append {separators : Bool} {a b : List Token} (front : Nested separators a)
    (behind : Nested separators b)
    : Nested separators (a ++ b) := by
  rw [nested_iff_foldlM] at front behind ⊢
  simp [List.foldlM_append, front, behind]

theorem singleton {t : Token} (opens : t ≠ .openBracket) (closes : t ≠ .closeBracket)
    (separates : t ≠ .separator)
    : Nested false [t] :=
  .token opens closes (fun separator => absurd separator separates) (.nil false)

/-- Between brackets any nested tokens make up a group. -/
theorem enclosed {separators : Bool} {tokens : List Token} (nested : Nested separators tokens)
    : Nested false (.openBracket :: tokens ++ [.closeBracket]) :=
  .group (nested_iff_foldlM.mpr (nested.foldlM_levelBehind fun _ => .inl rfl)) (.nil false)

end Nested

/-- Two token lists that change every level alike. -/
def SameDepths (tokens tokens' : List Token) : Prop :=
  ∀ separators level,
    tokens.foldlM (levelBehind separators) level = tokens'.foldlM (levelBehind separators) level

namespace SameDepths

variable {a a' b b' c : List Token}

theorem refl (a : List Token)
    : SameDepths a a :=
  fun _ _ => rfl

theorem trans (first : SameDepths a b) (second : SameDepths b c)
    : SameDepths a c :=
  fun separators level => (first separators level).trans (second separators level)

theorem symm (same : SameDepths a b)
    : SameDepths b a :=
  fun separators level => (same separators level).symm

theorem append (front : SameDepths a a') (behind : SameDepths b b')
    : SameDepths (a ++ b) (a' ++ b') := by
  intro separators level
  rw [List.foldlM_append, List.foldlM_append, front separators level]
  simp only [behind separators]

theorem cons (t : Token) (behind : SameDepths b b')
    : SameDepths (t :: b) (t :: b') :=
  append (refl [t]) behind

/-- Nested tokens without separators between them do not count. -/
theorem of_nested (nested : Nested false a) (b : List Token)
    : SameDepths (a ++ b) b := by
  intro separators level
  rw [List.foldlM_append, nested.keeps separators level]
  rfl

theorem nested_iff (same : SameDepths a b) (separators : Bool)
    : Nested separators a ↔ Nested separators b := by
  rw [nested_iff_foldlM, nested_iff_foldlM, same separators 0]

theorem balanced_iff (same : SameDepths a b)
    : Balanced a ↔ Balanced b := by
  rw [← nested_iff_balanced, ← nested_iff_balanced, same.nested_iff true]

theorem enclosable_iff (same : SameDepths a b)
    : Enclosable a ↔ Enclosable b := by
  rw [← nested_iff_enclosable, ← nested_iff_enclosable, same.nested_iff false]

end SameDepths

--------------------------------------------------------------------------------
-- Omitted multiplication signs
--------------------------------------------------------------------------------

theorem nested_operator (op : Operator)
    : Nested false [.operator op] :=
  .singleton (by simp) (by simp) (by simp)

theorem nested_gap (left right : Token)
    : Nested false (gap left right) := by
  unfold gap
  split
  · exact nested_operator .mul
  · exact .nil false

/-- Multiplications change no depth. -/
theorem sameDepths_multiplied (tokens : List Token)
    : SameDepths (multiplied tokens) tokens := by
  induction tokens with
  | nil => exact .refl []
  | cons t rest ih =>
      cases rest with
      | nil => exact .refl [t]
      | cons next rest =>
          rw [multiplied_cons_cons]
          exact .cons t ((SameDepths.of_nested (nested_gap t next) _).trans ih)

--------------------------------------------------------------------------------
-- Brackets around powers
--------------------------------------------------------------------------------

/-- The tokens of an operand are nested. -/
theorem Layout.nested_of_isOperand {t : Token} {rest : Layout}
    (operand : isOperand t rest = true)
    : Nested false [t] := by
  cases t with
  | number x | constant x | function f => exact .singleton (by simp) (by simp) (by simp)
  | operator op | openBracket | closeBracket | separator => cases operand

/-- The tokens of a group. -/
def groupTokens (callee : Option Function) (inner : List Token) : List Token :=
  (callee.map Token.function).toList ++ .openBracket :: inner ++ [.closeBracket]

theorem Layout.tokens_group_append (callee : Option Function) (inner rest : Layout)
    : (group callee inner rest).tokens = groupTokens callee inner.tokens ++ rest.tokens := by
  simp [groupTokens]

/-- A group and its callee are nested, with or without separators inside. -/
theorem nested_group {separators : Bool} {inner : List Token} (nested : Nested separators inner)
    (callee : Option Function)
    : Nested false (groupTokens callee inner) := by
  have bracketed := nested.enclosed
  cases callee with
  | none => simpa [groupTokens] using bracketed
  | some f => simpa [groupTokens] using bracketed.token (by simp) (by simp) (by simp)

namespace PowerReading

/-- The operand or exponent that was cut off is nested. -/
def Nests : PowerReading → Prop
  | operand chain _ => Nested false chain.tokens
  | power exponent _ => Nested false exponent.tokens
  | _ => True

/-- A reading of tokens keeps their depths, and nests. -/
structure KeepsDepths (tokens : List Token) (r : PowerReading) : Prop where
  nests : r.Nests
  same : SameDepths r.whole.tokens tokens

namespace KeepsDepths

variable {tokens : List Token} {r : PowerReading}

/-- A base in front of what is read. Witness: brackets around a power enclose the base and the
exponent, both of which are nested; elsewhere the base only stands in front.
-/
theorem withBase {base : Layout → Layout} {first first' : List Token}
    (base_tokens : ∀ l, (base l).tokens = first' ++ l.tokens)
    (nested : Nested false first) (nested' : Nested false first') (keeps : KeepsDepths tokens r)
    : KeepsDepths (first ++ tokens) (r.withBase base) := by
  obtain ⟨nests, same⟩ := keeps
  have front (behind : List Token) : SameDepths (first' ++ behind) (first ++ behind) :=
    (SameDepths.of_nested nested' behind).trans (SameDepths.of_nested nested behind).symm
  cases r with
  | power exponent rest =>
      have powered : Nested false (.operator .pow :: exponent.tokens) :=
        (nested_operator .pow).append nests
      have bracketed := (nested'.append powered).enclosed
      have behind : SameDepths rest.tokens tokens := by
        refine (SameDepths.of_nested powered _).symm.trans ?_
        simpa using same
      have operand := (SameDepths.of_nested bracketed rest.tokens).trans behind
      constructor
      · simpa [PowerReading.withBase, Nests, base_tokens] using bracketed
      · refine .trans ?_ (operand.trans (SameDepths.of_nested nested tokens).symm)
        simp [PowerReading.withBase, Layout.append, base_tokens, SameDepths.refl]
  | dangling rest =>
      refine ⟨trivial, .trans ?_ (front tokens)⟩
      have whole := (SameDepths.refl first').append same
      simpa [PowerReading.withBase, base_tokens] using whole
  | operand chain rest | other whole =>
      refine ⟨by simpa [PowerReading.withBase, Nests, base_tokens] using nested', ?_⟩
      refine .trans ?_ (front tokens)
      have whole := (SameDepths.refl first').append same
      simpa [PowerReading.withBase, base_tokens] using whole

/-- A power sign in front of what is read. -/
theorem withPower (keeps : KeepsDepths tokens r)
    : KeepsDepths (.operator .pow :: tokens) r.withPower where
  nests := by
    cases r with
    | operand chain rest => exact keeps.nests
    | power _ _ | dangling _ | other _ => trivial
  same := by
    rw [whole_withPower]
    exact keeps.same.cons _

/-- A sign in front of what is read joins its operand, or stands alone. -/
theorem withSign {t : Token} (sign : t.isSign = true) (keeps : KeepsDepths tokens r)
    : KeepsDepths (t :: tokens) (r.withSign t) where
  nests := by
    cases r with
    | operand chain rest =>
        cases t with
        | operator op => exact (nested_operator op).append keeps.nests
        | _ => cases sign
    | power _ _ | dangling _ | other _ => trivial
  same := by
    rw [whole_withSign]
    exact keeps.same.cons t

theorem other (keeps : KeepsDepths tokens r) (t : Token)
    : KeepsDepths (t :: tokens) (.other (.token t r.whole)) :=
  ⟨trivial, keeps.same.cons t⟩

end KeepsDepths

/-- Brackets around powers keep the depths. Witness: induction on the layout; what gets into new
brackets is nested.
-/
theorem keepsDepths_ofLayout {l : Layout} (matched : l.Matched)
    : KeepsDepths l.tokens (ofLayout l) := by
  induction l with
  | nil => exact ⟨trivial, .refl []⟩
  | group callee inner rest inner_ih ih =>
      have inner_nested : Nested true inner.tokens := matched.1.nested
      have inner_nested' := ((inner_ih matched.1.matched).same.nested_iff true).mpr inner_nested
      rw [Layout.tokens_group_append]
      exact (ih matched.2).withBase (Layout.tokens_group_append callee _)
        (nested_group inner_nested callee) (nested_group inner_nested' callee)
  | token t rest ih =>
      have keeps := ih matched
      unfold ofLayout
      split
      · rename_i operand
        have nested := Layout.nested_of_isOperand operand
        exact keeps.withBase (fun _ => rfl) nested nested
      · split
        · rename_i power
          subst power
          exact keeps.withPower
        · split
          · rename_i sign
            exact keeps.withSign sign
          · exact keeps.other t

end PowerReading

theorem sameDepths_powersGrouped (tokens : List Token)
    : SameDepths (powersGrouped tokens) tokens := by
  have keeps := PowerReading.keepsDepths_ofLayout (Layout.matched_ofTokens tokens)
  simpa [powersGrouped] using keeps.same

--------------------------------------------------------------------------------
-- Signs
--------------------------------------------------------------------------------

namespace SignReading

/-- A reading of tokens keeps their depths, and the operand that was cut off is nested. -/
structure KeepsDepths (tokens : List Token) (r : SignReading) : Prop where
  nests : ∀ first rest, r = operand first rest → Nested false first.tokens
  same : SameDepths r.whole.tokens tokens

namespace KeepsDepths

variable {tokens : List Token} {r : SignReading}

/-- The subtraction that a minus is rewritten to. Witness: its brackets enclose nested tokens, the
zero included.
-/
theorem negated (keeps : KeepsDepths tokens r)
    : KeepsDepths (.operator .sub :: tokens) r.negated := by
  have minus := nested_operator .sub
  cases r with
  | operand first rest =>
      have nests := keeps.nests first rest rfl
      have zero : Nested false [.number 0] := .singleton (by simp) (by simp) (by simp)
      have bracketed := (zero.append (minus.append nests)).enclosed
      have behind : SameDepths rest.tokens tokens :=
        (SameDepths.of_nested nests _).symm.trans (by simpa using keeps.same)
      constructor
      · rintro _ _ ⟨⟩
        simpa using bracketed
      · refine .trans ?_ (behind.trans (SameDepths.of_nested minus tokens).symm)
        simpa [SignReading.negated, Layout.append] using SameDepths.of_nested bracketed rest.tokens
  | other whole => exact ⟨by rintro _ _ ⟨⟩, keeps.same.cons _⟩

end KeepsDepths

/-- Rewriting signs keeps the depths. Witness: induction on the layout; what gets into new
brackets is nested.
-/
theorem keepsDepths_ofLayout {l : Layout} (matched : l.Matched) (signed : Bool)
    : KeepsDepths l.tokens (ofLayout signed l) := by
  induction l generalizing signed with
  | nil => exact ⟨by rintro _ _ ⟨⟩, .refl []⟩
  | group callee inner rest inner_ih ih =>
      have inner_nested : Nested true inner.tokens := matched.1.nested
      have inner_keeps := inner_ih matched.1.matched true
      have group' := nested_group ((inner_keeps.same.nested_iff true).mpr inner_nested) callee
      have group := nested_group inner_nested callee
      constructor
      · rintro _ _ ⟨⟩
        simpa [groupTokens] using group'
      · have front (behind : List Token) :=
          (SameDepths.of_nested group' behind).trans (SameDepths.of_nested group behind).symm
        have whole := (front _).trans ((SameDepths.refl _).append (ih matched.2 false).same)
        simpa [ofLayout, Layout.append, groupTokens] using whole
  | token t rest ih =>
      unfold ofLayout
      split
      · rename_i plus
        obtain rfl : t = .operator .add := by simpa using (Bool.and_eq_true_iff.mp plus).2
        have keeps := ih matched true
        exact ⟨keeps.nests, keeps.same.trans (SameDepths.of_nested (nested_operator .add) _).symm⟩
      · split
        · rename_i minus
          obtain rfl : t = .operator .sub := by simpa using (Bool.and_eq_true_iff.mp minus).2
          exact (ih matched true).negated
        · split
          · rename_i operand
            refine ⟨?_, (ih matched false).same.cons t⟩
            rintro _ _ ⟨⟩
            exact Layout.nested_of_isOperand operand
          · exact ⟨by rintro _ _ ⟨⟩, (ih matched _).same.cons t⟩

end SignReading

theorem sameDepths_signsRewritten (tokens : List Token)
    : SameDepths (signsRewritten tokens) tokens := by
  have keeps := SignReading.keepsDepths_ofLayout (Layout.matched_ofTokens tokens) true
  simpa [signsRewritten] using keeps.same

end Calculator.Infix
