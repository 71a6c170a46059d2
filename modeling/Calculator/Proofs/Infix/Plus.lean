import Calculator.Proofs.Infix.Juxtaposition
import Calculator.Proofs.Infix.Layout
import Calculator.Proofs.Infix.Reading
import Calculator.Solve

/-! A plus that is a sign changes nothing. The first two passes leave it where it is and do
everything else as if it were not there, and the last one drops it.
-/

namespace Calculator.Infix

open SignReading (allowsSign allowsSign_of_isSign allowsSign_of_isOperand)

/-- Whether a sign may stand at a position: at the beginning, or behind a token that allows it. -/
def signPosition (tokens : List Token) : Nat → Bool
  | 0 => true
  | i + 1 => tokens[i]?.any allowsSign

/-- Tokens, and the same ones with more pluses where a sign may stand. The flag tells whether one
may stand at the beginning.
-/
inductive WithPluses : Bool → List Token → List Token → Prop where
  | nil (signed : Bool) : WithPluses signed [] []
  | cons {signed : Bool} {t : Token} {rest more : List Token}
    (pluses : WithPluses (allowsSign t) rest more)
    : WithPluses signed (t :: rest) (t :: more)
  | plus {tokens more : List Token} (pluses : WithPluses true tokens more)
    : WithPluses true tokens (.operator .add :: more)

--------------------------------------------------------------------------------
-- Token lists
--------------------------------------------------------------------------------

theorem lacksSign_of_allowsSign {t : Token} (allows : allowsSign t = true) (next : Token)
    : lacksSign t next = false := by
  cases t with
  | operator op => exact lacksSign_operator_left op next
  | openBracket => exact lacksSign_openBracket_left next
  | separator => exact lacksSign_separator_left next
  | number x | constant c | function f | closeBracket => cases allows

namespace WithPluses

theorem refl (signed : Bool) (tokens : List Token)
    : WithPluses signed tokens tokens := by
  induction tokens generalizing signed with
  | nil => exact .nil signed
  | cons t rest ih => exact .cons (ih _)

theorem of_unsigned {tokens more : List Token} (pluses : WithPluses false tokens more)
    (signed : Bool)
    : WithPluses signed tokens more := by
  cases pluses with
  | nil => exact .nil signed
  | cons pluses => exact .cons pluses

/-- Related lists behind related lists. -/
theorem append {signed : Bool} {a a_more b b_more : List Token} (front : WithPluses signed a a_more)
    (behind : WithPluses false b b_more)
    : WithPluses signed (a ++ b) (a_more ++ b_more) := by
  induction front with
  | nil signed => exact behind.of_unsigned signed
  | cons _ ih => exact .cons ih
  | plus _ ih => exact .plus ih

/-- A plus may be put in wherever a sign may stand. -/
theorem insertIdx {tokens : List Token} {i : Nat} {signed : Bool} (start : i = 0 → signed = true)
    (position : signPosition tokens i = true)
    : WithPluses signed tokens (tokens.insertIdx i (.operator .add)) := by
  induction i generalizing tokens signed with
  | zero =>
      obtain rfl := start rfl
      exact .plus (refl true tokens)
  | succ i ih =>
      cases tokens with
      | nil => cases position
      | cons t rest =>
          refine .cons (ih (fun first => ?_) ?_)
          · subst first
            exact position
          · cases i with
            | zero => rfl
            | succ i => exact position

/-- Where a plus is put in, no multiplication sign is missing, on its left or on its right. -/
theorem multiplied {signed : Bool} {tokens more : List Token}
    (pluses : WithPluses signed tokens more)
    : WithPluses signed (multiplied tokens) (multiplied more) := by
  induction pluses with
  | nil signed => exact .nil signed
  | plus _ ih =>
      rw [multiplied_operator]
      exact .plus ih
  | @cons signed t rest more pluses ih =>
      by_cases allows : allowsSign t = true
      · have alone (behind : List Token)
            : Infix.multiplied (t :: behind) = t :: Infix.multiplied behind :=
          multiplied_cons_of_fits fun next _ => lacksSign_of_allowsSign allows next
        rw [alone, alone]
        exact .cons ih
      · rw [Bool.not_eq_true] at allows
        rw [allows] at pluses ih
        cases pluses with
        | nil => exact refl signed _
        | cons pluses =>
            rw [multiplied_cons_cons, multiplied_cons_cons]
            refine .cons (.of_unsigned ?_ _)
            unfold gap
            split
            · exact .cons (ih.of_unsigned _)
            · exact ih

end WithPluses

--------------------------------------------------------------------------------
-- Layouts
--------------------------------------------------------------------------------

namespace Layout

/-- A layout, and the same one with more pluses where a sign may stand. -/
inductive WithPluses : Bool → Layout → Layout → Prop where
  | nil (signed : Bool) : WithPluses signed nil nil
  | token {signed : Bool} {t : Token} {rest more : Layout}
    (pluses : WithPluses (allowsSign t) rest more)
    : WithPluses signed (token t rest) (token t more)
  | group {signed : Bool} {callee : Option Function} {inner inner_more rest more : Layout}
    (inner_pluses : WithPluses true inner inner_more) (pluses : WithPluses false rest more)
    : WithPluses signed (group callee inner rest) (group callee inner_more more)
  | plus {l more : Layout} (pluses : WithPluses true l more)
    : WithPluses true l (.token (.operator .add) more)

namespace WithPluses

theorem of_unsigned {l more : Layout} (pluses : WithPluses false l more) (signed : Bool)
    : WithPluses signed l more := by
  cases pluses with
  | nil => exact .nil signed
  | token pluses => exact .token pluses
  | group inner_pluses pluses => exact .group inner_pluses pluses

/-- Related layouts behind related layouts. -/
theorem append {signed : Bool} {a a_more b b_more : Layout} (front : WithPluses signed a a_more)
    (behind : WithPluses false b b_more)
    : WithPluses signed (a.append b) (a_more.append b_more) := by
  induction front with
  | nil signed => exact behind.of_unsigned signed
  | token _ ih => exact .token ih
  | group inner_pluses _ _ ih => exact .group inner_pluses ih
  | plus _ ih => exact .plus ih

/-- Related layouts stand for related tokens. Witness: induction on the relation; the brackets of a
group open and close both sides.
-/
theorem tokens {signed : Bool} {l more : Layout} (pluses : WithPluses signed l more)
    : Infix.WithPluses signed l.tokens more.tokens := by
  induction pluses with
  | nil signed => exact .nil signed
  | token _ ih => exact .cons ih
  | plus _ ih => exact .plus ih
  | @group signed callee inner inner_more rest more _ _ inner_ih ih =>
      have closing
          : Infix.WithPluses false (.closeBracket :: rest.tokens) (.closeBracket :: more.tokens) :=
        .cons ih
      have bracketed (signed : Bool)
          : Infix.WithPluses signed (.openBracket :: inner.tokens ++ .closeBracket :: rest.tokens)
            (.openBracket :: inner_more.tokens ++ .closeBracket :: more.tokens) :=
        .cons (inner_ih.append closing)
      rw [tokens_group, tokens_group]
      cases callee with
      | none => exact bracketed signed
      | some f => exact .cons (bracketed false)

end WithPluses

/-- Two readings of which the second one has more pluses. -/
structure Reading.WithPluses (signed : Bool) (r more : Reading) : Prop where
  level : Layout.WithPluses signed r.level more.level
  outer : List.Forall₂ (Layout.WithPluses false) r.outer more.outer

namespace Reading.WithPluses

/-- Reading a token in front keeps the pluses, and what stands behind it decides whether there may
be one. Witness: a function joins a group only if no plus is between them.
-/
theorem read {t : Token} {r more : Reading} (pluses : WithPluses (allowsSign t) r more)
    (signed : Bool)
    : WithPluses signed (r.read t) (more.read t) := by
  obtain ⟨level, outer⟩ := r
  obtain ⟨level_more, outer_more⟩ := more
  obtain ⟨inside, outside⟩ := pluses
  cases t with
  | closeBracket => exact ⟨.nil signed, .cons inside outside⟩
  | openBracket =>
      cases outside with
      | nil => exact ⟨.token inside, .nil⟩
      | cons next outside => exact ⟨.group inside next, outside⟩
  | function f =>
      cases inside with
      | nil => exact ⟨.token (.nil _), outside⟩
      | token behind => exact ⟨.token (.token behind), outside⟩
      | @group _ callee _ _ _ _ inner_pluses behind =>
          cases callee with
          | none => exact ⟨.group inner_pluses behind, outside⟩
          | some g => exact ⟨.token (.group inner_pluses behind), outside⟩
  | number x | constant c | operator op | separator => exact ⟨.token inside, outside⟩

/-- Closing the levels that are still open keeps them related. -/
theorem close {signed : Bool} {level more : Layout} {outer outer_more : List Layout}
    (inside : Layout.WithPluses signed level more)
    (outside : List.Forall₂ (Layout.WithPluses false) outer outer_more)
    : Layout.WithPluses signed (close level outer) (close more outer_more) := by
  induction outside generalizing signed level more with
  | nil => exact inside
  | cons next _ ih => exact inside.append (.token (ih next))

end Reading.WithPluses

/-- Related tokens have related layouts. Witness: each further token keeps the readings related.
-/
theorem withPluses_ofTokens {signed : Bool} {tokens more : List Token}
    (pluses : Infix.WithPluses signed tokens more)
    : WithPluses signed (ofTokens tokens) (ofTokens more) := by
  have reads
      : Reading.WithPluses signed (tokens.foldr Reading.read ⟨nil, []⟩)
        (more.foldr Reading.read ⟨nil, []⟩) := by
    induction pluses with
    | nil signed => exact ⟨.nil signed, .nil⟩
    | cons _ ih => exact ih.read _
    | plus _ ih => exact ⟨.plus ih.level, ih.outer⟩
  exact Reading.WithPluses.close reads.level reads.outer

/-- Pluses behind a token do not change whether it is an operand. -/
theorem WithPluses.isOperand {t : Token} {rest more : Layout}
    (pluses : WithPluses (allowsSign t) rest more)
    : isOperand t more = isOperand t rest := by
  cases t with
  | function f =>
      have starts : more.startsUnmatched = rest.startsUnmatched := by
        cases pluses with
        | nil | group _ _ => rfl
        | @token _ u _ _ _ => cases u <;> rfl
      simp [Layout.isOperand, starts]
  | number x | constant c | operator op | openBracket | closeBracket | separator => rfl

end Layout

--------------------------------------------------------------------------------
-- Brackets around powers
--------------------------------------------------------------------------------

namespace PowerReading

/-- Whether a reading begins with an operand. -/
def isOperand : PowerReading → Bool
  | operand _ _ => true
  | _ => false

/-- Two readings of which the second one has more pluses. A plus in front of anything but an
operand is not part of a power.
-/
inductive WithPluses : Bool → PowerReading → PowerReading → Prop where
  | operand {signed : Bool} {chain chain_more rest more : Layout}
    (chain_pluses : Layout.WithPluses signed chain chain_more)
    (pluses : Layout.WithPluses false rest more)
    : WithPluses signed (operand chain rest) (operand chain_more more)
  | power {signed : Bool} {exponent exponent_more rest more : Layout}
    (exponent_pluses : Layout.WithPluses true exponent exponent_more)
    (pluses : Layout.WithPluses false rest more)
    : WithPluses signed (power exponent rest) (power exponent_more more)
  | dangling {signed : Bool} {rest more : Layout} (pluses : Layout.WithPluses true rest more)
    : WithPluses signed (dangling rest) (dangling more)
  | other {signed : Bool} {whole more : Layout} (pluses : Layout.WithPluses signed whole more)
    : WithPluses signed (other whole) (other more)
  | apart {r : PowerReading} {more : Layout} (lacks : r.isOperand = false)
    (pluses : Layout.WithPluses true r.whole more)
    : WithPluses true r (.other more)

namespace WithPluses

variable {signed : Bool} {r more : PowerReading}

/-- Related readings stand for related layouts. -/
theorem whole (pluses : WithPluses signed r more)
    : Layout.WithPluses signed r.whole more.whole := by
  cases pluses with
  | operand chain_pluses pluses => exact chain_pluses.append pluses
  | power exponent_pluses pluses => exact .token (exponent_pluses.append pluses)
  | dangling pluses => exact .token pluses
  | other pluses => exact pluses
  | apart _ pluses => exact pluses

/-- A base in front of related readings. Witness: a further plus of the exponent stays within its
brackets.
-/
theorem withBase {base base_more : Layout → Layout}
    (front : ∀ signed l l_more, Layout.WithPluses false l l_more
      → Layout.WithPluses signed (base l) (base_more l_more))
    (pluses : WithPluses false r more) (signed : Bool)
    : WithPluses signed (r.withBase base) (more.withBase base_more) := by
  cases pluses with
  | operand chain_pluses pluses =>
      exact .operand (front _ _ _ (.nil false)) (chain_pluses.append pluses)
  | power exponent_pluses pluses =>
      exact .operand (.group (front _ _ _ (.token exponent_pluses)) (.nil false)) pluses
  | dangling pluses => exact .other (front _ _ _ (.token pluses))
  | other pluses => exact .operand (front _ _ _ (.nil false)) pluses

/-- A power sign in front of related readings, whose exponent may begin with a further plus. -/
theorem withPower (pluses : WithPluses true r more) (signed : Bool)
    : WithPluses signed r.withPower more.withPower := by
  cases pluses with
  | operand chain_pluses pluses => exact .power chain_pluses pluses
  | power exponent_pluses pluses => exact .dangling (.token (exponent_pluses.append pluses))
  | dangling pluses => exact .dangling (.token pluses)
  | other pluses => exact .dangling pluses
  | apart lacks pluses =>
      cases r with
      | operand chain rest => cases lacks
      | power _ _ | dangling _ | other _ => exact .dangling pluses

/-- A sign in front of related readings. Witness: behind a sign another one may stand. -/
theorem withSign {t : Token} (sign : t.isSign = true) (pluses : WithPluses true r more)
    (signed : Bool)
    : WithPluses signed (r.withSign t) (more.withSign t) := by
  have behind {l l_more : Layout} (pluses : Layout.WithPluses true l l_more)
      : Layout.WithPluses signed (.token t l) (.token t l_more) :=
    .token (by rwa [allowsSign_of_isSign sign])
  cases pluses with
  | operand chain_pluses pluses => exact .operand (behind chain_pluses) pluses
  | power exponent_pluses pluses =>
      exact .other (behind (.token (exponent_pluses.append pluses)))
  | dangling pluses => exact .other (behind (.token pluses))
  | other pluses => exact .other (behind pluses)
  | apart lacks pluses =>
      cases r with
      | operand chain rest => cases lacks
      | power _ _ | dangling _ | other _ => exact .other (behind pluses)

/-- A plus goes in front of an operand, and stays apart from anything else. -/
theorem plus (pluses : WithPluses true r more)
    : WithPluses true r (more.withSign (.operator .add)) := by
  cases pluses with
  | operand chain_pluses pluses => exact .operand (.plus chain_pluses) pluses
  | power exponent_pluses pluses =>
      exact .apart rfl (.plus (.token (exponent_pluses.append pluses)))
  | dangling pluses => exact .apart rfl (.plus (.token pluses))
  | other pluses => exact .apart rfl (.plus pluses)
  | apart lacks pluses => exact .apart lacks (.plus pluses)

end WithPluses

/-- Powers are bracketed as if the pluses were not there. Witness: induction on the pluses. -/
theorem withPluses_ofLayout {signed : Bool} {l more : Layout}
    (pluses : Layout.WithPluses signed l more)
    : WithPluses signed (ofLayout l) (ofLayout more) := by
  induction pluses with
  | nil signed => exact .other (.nil signed)
  | plus _ ih => exact ih.plus
  | group _ _ inner_ih ih => exact ih.withBase (fun _ _ _ behind => .group inner_ih.whole behind) _
  | @token signed t rest more pluses ih =>
      unfold ofLayout
      rw [pluses.isOperand]
      by_cases operand : Layout.isOperand t rest = true
      · have closes := allowsSign_of_isOperand operand
        rw [closes] at ih
        rw [if_pos operand, if_pos operand]
        exact ih.withBase (fun _ _ _ behind => .token (by rwa [closes])) signed
      · rw [if_neg operand, if_neg operand]
        by_cases power : t = .operator .pow
        · subst power
          exact ih.withPower signed
        · rw [if_neg power, if_neg power]
          by_cases sign : t.isSign = true
          · rw [allowsSign_of_isSign sign] at ih
            rw [if_pos sign, if_pos sign]
            exact ih.withSign sign signed
          · rw [if_neg sign, if_neg sign]
            exact .other (.token ih.whole)

end PowerReading

--------------------------------------------------------------------------------
-- Signs
--------------------------------------------------------------------------------

/-- The signs of a layout are rewritten as if the pluses were not there. Witness: induction on the
pluses.
-/
theorem SignReading.ofLayout_withPluses {signed : Bool} {l more : Layout}
    (pluses : Layout.WithPluses signed l more)
    : ofLayout signed more = ofLayout signed l := by
  induction pluses with
  | nil signed => rfl
  | plus _ ih => exact ih
  | group _ _ inner_ih ih => rw [ofLayout, ofLayout, inner_ih, ih]
  | @token signed t rest more pluses ih =>
      by_cases sign : signed = true ∧ t.isSign = true
      · obtain ⟨rfl, sign⟩ := sign
        rw [allowsSign_of_isSign sign] at ih
        obtain rfl | rfl : t = .operator .add ∨ t = .operator .sub := by
          simpa [Token.isSign] using sign
        · exact ih
        · exact congrArg negated ih
      · have kept : signed = true → t.isSign = false := by
          simpa using sign
        rw [ofLayout_of_kept kept, ofLayout_of_kept kept, pluses.isOperand]
        by_cases operand : Layout.isOperand t rest = true
        · rw [allowsSign_of_isOperand operand] at ih
          rw [if_pos operand, if_pos operand, ih]
        · rw [if_neg operand, if_neg operand, ih]

--------------------------------------------------------------------------------
-- All passes together
--------------------------------------------------------------------------------

namespace WithPluses

theorem powersGrouped {tokens more : List Token} (pluses : WithPluses true tokens more)
    : WithPluses true (powersGrouped tokens) (powersGrouped more) :=
  (PowerReading.withPluses_ofLayout (Layout.withPluses_ofTokens pluses)).whole.tokens

theorem signsRewritten {tokens more : List Token} (pluses : WithPluses true tokens more)
    : signsRewritten more = signsRewritten tokens := by
  unfold Infix.signsRewritten
  rw [SignReading.ofLayout_withPluses (Layout.withPluses_ofTokens pluses)]

/-- Pluses that are signs have no part in the infix tokens that a text stands for. -/
theorem explicit {tokens more : List Token} (pluses : WithPluses true tokens more)
    : explicit more = explicit tokens :=
  pluses.multiplied.powersGrouped.signsRewritten

end WithPluses

/-- A plus that is put in where a sign may stand does not change the infix tokens that a text stands
for, whatever the tokens are. Witness: all passes but the last one keep the plus where it is.
-/
theorem explicit_insertIdx_plus {tokens : List Token} {i : Nat}
    (position : signPosition tokens i = true)
    : explicit (tokens.insertIdx i (.operator .add)) = explicit tokens :=
  (WithPluses.insertIdx (fun _ => rfl) position).explicit

/-- Witness: a plus in front of the minus of an exponent, behind a bracket without a partner. -/
theorem explicit_insertIdx_plus_exponent
    : signPosition [.closeBracket, .constant .pi, .operator .pow, .operator .sub, .number 2] 3
        = true
      ∧ explicit
          ([.closeBracket, .constant .pi, .operator .pow, .operator .sub, .number 2].insertIdx 3
            (.operator .add))
        = [.closeBracket, .operator .mul, .openBracket, .constant .pi, .operator .pow,
          .openBracket, .number 0, .operator .sub, .number 2, .closeBracket, .closeBracket] :=
  ⟨rfl, (explicit_insertIdx_plus rfl).trans rfl⟩

end Calculator.Infix
