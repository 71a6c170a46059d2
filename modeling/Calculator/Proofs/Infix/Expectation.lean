import Calculator.Proofs.Infix.Plus

/-! Where operands are missing. Read from left to right, the tokens decide at each place whether
an operand has to begin there, and a sign puts that off to the token behind it. The passes over
the infix tokens make up for no missing operand: where their output lacks none, the tokens as they
are written lack none either.
-/

namespace Calculator

/-- Whether an operand can begin with a token. -/
def Token.startsOperand (t : Token) : Bool :=
  t.isValue || t.isFunction || t == .openBracket

namespace Infix

open SignReading (allowsSign allowsSign_of_isSign allowsSign_of_isOperand ofLayout_of_kept)

/-- What the tokens that were read make of the next one. -/
inductive Expectation where
  /-- An operand or its sign. -/
  | operand
  /-- An operand or its sign, or the end of the brackets of a function without arguments. -/
  | arguments
  /-- Anything, and the brackets of a function without arguments too. -/
  | called
  /-- Anything. -/
  | anything
deriving DecidableEq

namespace Expectation

/-- Whether an operand has to begin. -/
def awaitsOperand : Expectation → Bool
  | operand | arguments => true
  | called | anything => false

/-- What is expected behind a token, wherever it stands. -/
def behind : Token → Expectation
  | .operator _ | .openBracket | .separator => operand
  | .function (.nullary _) => called
  | .number _ | .constant _ | .function _ | .closeBracket => anything

/-- Reads a token, if it is expected. A plus between the brackets of a function without arguments
leaves open whether there are any.
-/
def read : Expectation → Token → Option Expectation
  | called, .openBracket => some arguments
  | arguments, .operator .add => some arguments
  | arguments, .closeBracket => some anything
  | now, t =>
      if now.awaitsOperand && !(t.startsOperand || t.isSign) then none else some (behind t)

/-- Reads several tokens. -/
def readAll (now : Expectation) (tokens : List Token) : Option Expectation :=
  tokens.foldlM read now

variable {now next more : Expectation} {t : Token}

@[simp]
theorem readAll_nil (now : Expectation)
    : now.readAll [] = some now :=
  rfl

theorem readAll_cons_eq_some {tokens : List Token}
    : now.readAll (t :: tokens) = some next
      ↔ ∃ between, now.read t = some between ∧ between.readAll tokens = some next := by
  simp [readAll, Option.bind_eq_some_iff]

theorem readAll_append_eq_some {left right : List Token}
    : now.readAll (left ++ right) = some next
      ↔ ∃ between, now.readAll left = some between ∧ between.readAll right = some next := by
  simp [readAll, Option.bind_eq_some_iff]

theorem readAll_concat_eq_some {tokens : List Token}
    : now.readAll (tokens ++ [t]) = some next
      ↔ ∃ between, now.readAll tokens = some between ∧ between.read t = some next := by
  simp [readAll_append_eq_some, readAll_cons_eq_some]

/-- Where no operand is awaited any token may be read. -/
theorem read_of_closed (closed : now.awaitsOperand = false)
    : now.read t = some (behind t) ∨ now = called ∧ t = .openBracket := by
  unfold read
  split
  · exact .inr ⟨rfl, rfl⟩
  · cases closed
  · cases closed
  · rw [closed]
    exact .inl rfl

theorem exists_read_of_closed (closed : now.awaitsOperand = false) (t : Token)
    : ∃ next, now.read t = some next := by
  rcases read_of_closed (t := t) closed with reads | ⟨rfl, rfl⟩
  · exact ⟨behind t, reads⟩
  · exact ⟨arguments, rfl⟩

/-- Behind a token an operand is awaited exactly where a sign may stand. -/
theorem awaitsOperand_of_read (reads : now.read t = some next)
    : next.awaitsOperand = allowsSign t := by
  have behind_eq : (behind t).awaitsOperand = allowsSign t := by
    cases t with
    | function f => cases f <;> rfl
    | _ => rfl
  unfold read at reads
  split at reads
  · cases reads
    rfl
  · cases reads
    rfl
  · cases reads
    rfl
  · split at reads
    · cases reads
    · cases reads
      exact behind_eq

--------------------------------------------------------------------------------
-- Expectations that leave more open
--------------------------------------------------------------------------------

/-- Whatever may be read now may be read where more is left open. -/
def Within (now more : Expectation) : Prop :=
  now = more ∨ now = operand ∨ now = anything ∧ more = called

theorem Within.refl (now : Expectation)
    : now.Within now :=
  .inl rfl

/-- The order of expectations is transitive. -/
theorem Within.trans {most : Expectation} (left : now.Within more) (right : more.Within most)
    : now.Within most := by
  rcases left with rfl | rfl | ⟨rfl, rfl⟩
  · exact right
  · exact .inr (.inl rfl)
  · rcases right with rfl | same | ⟨same, _⟩
    · exact .inr (.inr ⟨rfl, rfl⟩)
    · cases same
    · cases same

theorem operand_within (more : Expectation)
    : operand.Within more :=
  .inr (.inl rfl)

/-- Where no operand is awaited anything may follow. -/
theorem anything_within (closed : more.awaitsOperand = false)
    : anything.Within more := by
  cases more with
  | operand | arguments => cases closed
  | called => exact .inr (.inr ⟨rfl, rfl⟩)
  | anything => exact .refl _

theorem Within.awaitsOperand (within : now.Within more) (closed : now.awaitsOperand = false)
    : more.awaitsOperand = false := by
  rcases within with rfl | rfl | ⟨_, rfl⟩
  · exact closed
  · cases closed
  · rfl

/-- The beginning of an operand and its signs may be read anywhere. -/
theorem read_of_starts (more : Expectation) (starts : (t.startsOperand || t.isSign) = true)
    : ∃ further, more.read t = some further ∧ (behind t).Within further := by
  unfold read
  split
  · exact ⟨arguments, rfl, operand_within _⟩
  · exact ⟨arguments, rfl, operand_within _⟩
  · cases starts
  · rw [starts, Bool.not_true, Bool.and_false]
    exact ⟨behind t, rfl, .refl _⟩

/-- What is read in the place of an operand begins one, or is a sign. -/
theorem starts_of_read_operand (reads : operand.read t = some next)
    : (t.startsOperand || t.isSign) = true ∧ next = behind t := by
  simp only [read] at reads
  split at reads
  · cases reads
  · rename_i starts
    rw [awaitsOperand, Bool.true_and, Bool.not_eq_true, Bool.not_eq_false'] at starts
    exact ⟨starts, (Option.some.inj reads).symm⟩

/-- The beginning of an operand may be read, unless the brackets of a function without arguments may
follow.
-/
theorem read_of_startsOperand (starts : t.startsOperand = true) (uncalled : now ≠ called)
    : now.read t = some (behind t) := by
  unfold read
  split
  · exact absurd rfl uncalled
  · cases starts
  · cases starts
  · rw [starts, Bool.true_or, Bool.not_true, Bool.and_false]
    rfl

/-- What is read where less is expected is also read where more is, and so it remains behind it. -/
theorem Within.read (within : now.Within more) (reads : now.read t = some next)
    : ∃ further, more.read t = some further ∧ next.Within further := by
  rcases within with rfl | rfl | ⟨rfl, rfl⟩
  · exact ⟨next, reads, .refl next⟩
  · obtain ⟨starts, rfl⟩ := starts_of_read_operand reads
    exact read_of_starts more starts
  · obtain rfl : behind t = next := by
      rcases read_of_closed (t := t) (rfl : anything.awaitsOperand = false) with same | ⟨other, _⟩
      · exact Option.some.inj (same.symm.trans reads)
      · cases other
    rcases read_of_closed (t := t) (rfl : called.awaitsOperand = false) with same | ⟨_, rfl⟩
    · exact ⟨behind t, same, .refl _⟩
    · exact ⟨arguments, rfl, operand_within _⟩

/-- So it is for a whole run. Witness: induction on the tokens. -/
theorem Within.readAll {tokens : List Token} (within : now.Within more)
    (reads : now.readAll tokens = some next)
    : ∃ further, more.readAll tokens = some further ∧ next.Within further := by
  induction tokens generalizing now more with
  | nil =>
      cases reads
      exact ⟨more, rfl, within⟩
  | cons t rest ih =>
      obtain ⟨between, first, reads⟩ := readAll_cons_eq_some.mp reads
      obtain ⟨further, first', within⟩ := within.read first
      obtain ⟨final, reads', within⟩ := ih within reads
      exact ⟨final, readAll_cons_eq_some.mpr ⟨further, first', reads'⟩, within⟩

end Expectation

open Expectation

--------------------------------------------------------------------------------
-- Tokens in the place of others
--------------------------------------------------------------------------------

/-- Where `tokens` may be read, `others` may be read too, and they leave as much open. The flag
tells whether a sign may stand where they begin.
-/
def Relaxes (signed : Bool) (tokens others : List Token) : Prop :=
  ∀ now next : Expectation, now.awaitsOperand = signed → now.readAll tokens = some next
    → ∃ further, now.readAll others = some further ∧ next.Within further

namespace Relaxes

variable {signed : Bool} {tokens others : List Token}

theorem refl (signed : Bool) (tokens : List Token)
    : Relaxes signed tokens tokens :=
  fun _ next _ reads => ⟨next, reads, .refl next⟩

theorem trans {further : List Token} (left : Relaxes signed tokens others)
    (right : Relaxes signed others further)
    : Relaxes signed tokens further := by
  intro now next starts reads
  obtain ⟨more, reads, within⟩ := left now next starts reads
  obtain ⟨most, reads, within'⟩ := right now more starts reads
  exact ⟨most, reads, within.trans within'⟩

/-- A token in front of related lists, if it leaves both in the same place. -/
theorem cons {t : Token} {inside : Bool} (behind : Relaxes inside tokens others)
    (allows : allowsSign t = inside) (signed : Bool)
    : Relaxes signed (t :: tokens) (t :: others) := by
  intro now next _ reads
  obtain ⟨between, first, reads⟩ := readAll_cons_eq_some.mp reads
  have awaits := (awaitsOperand_of_read first).trans allows
  obtain ⟨more, reads, within⟩ := behind between next awaits reads
  exact ⟨more, readAll_cons_eq_some.mpr ⟨between, first, reads⟩, within⟩

/-- Related lists in front of related lists. -/
theorem append {tail others_tail : List Token} (front : Relaxes signed tokens others)
    (behind : ∀ signed, Relaxes signed tail others_tail)
    : Relaxes signed (tokens ++ tail) (others ++ others_tail) := by
  intro now next starts reads
  obtain ⟨between, reads, reads_tail⟩ := readAll_append_eq_some.mp reads
  obtain ⟨more, reads, within⟩ := front now between starts reads
  obtain ⟨further, reads_tail, within_tail⟩ := behind _ between next rfl reads_tail
  obtain ⟨most, reads_tail, within⟩ := within.readAll reads_tail
  exact ⟨most, readAll_append_eq_some.mpr ⟨more, reads, reads_tail⟩, within_tail.trans within⟩

/-- A multiplication may be left out: it is read only behind an operand, where anything may
follow.
-/
theorem multiplication (signed : Bool) (tokens : List Token)
    : Relaxes signed (.operator .mul :: tokens) tokens := by
  intro now next _ reads
  obtain ⟨between, first, reads⟩ := readAll_cons_eq_some.mp reads
  obtain rfl : operand = between := by
    cases now <;> cases first
    all_goals rfl
  exact (operand_within now).readAll reads

end Relaxes

/-- There are tokens, and no sign may stand behind them. -/
def EndsClosed (tokens : List Token) : Prop :=
  ∃ front last, tokens = front ++ [last] ∧ allowsSign last = false

theorem EndsClosed.append {tokens : List Token} (ends : EndsClosed tokens) (front : List Token)
    : EndsClosed (front ++ tokens) := by
  obtain ⟨between, last, rfl, closed⟩ := ends
  exact ⟨front ++ between, last, (List.append_assoc _ _ _).symm, closed⟩

theorem endsClosed_closeBracket (front : List Token)
    : EndsClosed (front ++ [.closeBracket]) :=
  ⟨front, .closeBracket, rfl, rfl⟩

/-- Tokens that end an operand may stand without the bracket behind them. -/
theorem EndsClosed.relaxes_closeBracket {tokens : List Token} (ends : EndsClosed tokens)
    (signed : Bool)
    : Relaxes signed (tokens ++ [.closeBracket]) tokens := by
  intro now next _ reads
  obtain ⟨between, inside, closing⟩ := readAll_concat_eq_some.mp reads
  obtain ⟨front, last, rfl, closed⟩ := ends
  have finished : between.awaitsOperand = false := by
    obtain ⟨_, _, reads_last⟩ := readAll_concat_eq_some.mp inside
    rw [awaitsOperand_of_read reads_last, closed]
  obtain rfl : anything = next := by
    rcases read_of_closed (t := .closeBracket) finished with same | ⟨_, other⟩
    · exact Option.some.inj (same.symm.trans closing)
    · cases other
  exact ⟨between, inside, anything_within finished⟩

/-- Brackets around an operand may be left out. -/
theorem EndsClosed.relaxes_brackets {first : Token} {rest : List Token}
    (ends : EndsClosed (first :: rest)) (starts : first.startsOperand = true) (signed : Bool)
    : Relaxes signed (.openBracket :: first :: rest ++ [.closeBracket]) (first :: rest) := by
  refine .trans (ends.append [.openBracket] |>.relaxes_closeBracket signed) ?_
  intro now next _ reads
  obtain ⟨inside, opened, reads⟩ := readAll_cons_eq_some.mp reads
  obtain ⟨between, begins, reads⟩ := readAll_cons_eq_some.mp reads
  have awaits := awaitsOperand_of_read opened
  -- Behind the bracket an operand is read as where nothing but an operand is expected.
  have alike : operand.read first = inside.read first := by
    rw [read_of_startsOperand starts (by simp), read_of_startsOperand starts]
    rintro rfl
    cases awaits
  exact (operand_within now).readAll
    (readAll_cons_eq_some.mpr ⟨between, alike.trans begins, reads⟩)

--------------------------------------------------------------------------------
-- Multiplications
--------------------------------------------------------------------------------

/-- Multiplication signs are written only behind an operand. Witness: induction on the tokens. -/
theorem relaxes_multiplied (signed : Bool) (tokens : List Token)
    : Relaxes signed (multiplied tokens) tokens := by
  induction tokens generalizing signed with
  | nil => exact .refl signed []
  | cons t rest ih =>
      cases rest with
      | nil => exact .refl signed [t]
      | cons next later =>
          rw [multiplied_cons_cons]
          refine .cons ?_ rfl signed
          unfold gap
          split
          · exact (Relaxes.multiplication _ _).trans (ih _)
          · exact ih _

--------------------------------------------------------------------------------
-- Brackets around powers
--------------------------------------------------------------------------------

theorem startsOperand_of_isOperand {t : Token} {rest : Layout}
    (operand : Layout.isOperand t rest = true)
    : t.startsOperand = true := by
  simp only [Layout.isOperand, Bool.or_eq_true, Bool.and_eq_true] at operand
  rcases operand with value | ⟨function, _⟩
  · simp [Token.startsOperand, value]
  · simp [Token.startsOperand, function]

namespace Layout

/-- The tokens of a group are an operand. -/
theorem tokens_group_eq (callee : Option Function) (inner : Layout)
    : ∃ first rest, first.startsOperand = true ∧ EndsClosed (first :: rest)
        ∧ ∀ l, (group callee inner l).tokens = first :: rest ++ l.tokens := by
  cases callee with
  | none =>
      refine ⟨.openBracket, inner.tokens ++ [.closeBracket], rfl, ?_, by simp⟩
      exact endsClosed_closeBracket (.openBracket :: inner.tokens)
  | some f =>
      refine ⟨.function f, .openBracket :: inner.tokens ++ [.closeBracket], rfl, ?_, by simp⟩
      exact endsClosed_closeBracket (.function f :: .openBracket :: inner.tokens)

/-- Groups with the same function relax if what is inside does. -/
theorem relaxes_group (callee : Option Function) {inner written rest later : Layout}
    (inside : Relaxes true inner.tokens written.tokens)
    (behind : Relaxes false rest.tokens later.tokens) (signed : Bool)
    : Relaxes signed (group callee inner rest).tokens (group callee written later).tokens := by
  have bracketed (signed : Bool)
      : Relaxes signed (.openBracket :: (inner.tokens ++ .closeBracket :: rest.tokens))
        (.openBracket :: (written.tokens ++ .closeBracket :: later.tokens)) :=
    .cons (inside.append fun signed => .cons behind rfl signed) rfl signed
  cases callee with
  | none => simpa using bracketed signed
  | some f => simpa using Relaxes.cons (t := .function f) (bracketed false) rfl signed

end Layout

namespace PowerReading

/-- Where a reading was cut, an operand ends. -/
def EndsClosed : PowerReading → Prop
  | operand chain _ => Infix.EndsClosed chain.tokens
  | power exponent _ => Infix.EndsClosed exponent.tokens
  | dangling _ | other _ => True

/-- A base in front of a power relaxes with it, in brackets or not. -/
theorem relaxes_withBase {base : Layout → Layout} {first : Token} {rest : List Token}
    (starts : first.startsOperand = true)
    (tokens : ∀ l, (base l).tokens = first :: rest ++ l.tokens) {r : PowerReading}
    (ends : r.EndsClosed) (signed : Bool)
    : Relaxes signed (r.withBase base).whole.tokens (base r.whole).tokens := by
  cases r with
  | operand chain rest => simpa [withBase, tokens] using Relaxes.refl signed _
  | dangling rest => exact .refl signed _
  | other whole => simpa [withBase, tokens] using Relaxes.refl signed _
  | power exponent behind =>
      have closed := EndsClosed.append ends (first :: rest ++ [.operator .pow])
      have brackets := closed.relaxes_brackets starts signed
      simpa [withBase, tokens, Layout.append]
        using brackets.append fun signed => .refl signed behind.tokens

/-- An operand that begins with a base ends where the base does, or with the bracket behind a power.
-/
theorem EndsClosed.withBase {base : Layout → Layout} {first : Token} {rest : List Token}
    (base_ends : Infix.EndsClosed (first :: rest))
    (tokens : ∀ l, (base l).tokens = first :: rest ++ l.tokens) (r : PowerReading)
    : (r.withBase base).EndsClosed := by
  cases r with
  | operand _ _ | other _ => simpa [PowerReading.withBase, EndsClosed, tokens] using base_ends
  | power exponent behind =>
      simpa [PowerReading.withBase, EndsClosed]
        using endsClosed_closeBracket
          (.openBracket :: (base (.token (.operator .pow) exponent)).tokens)
  | dangling _ => trivial

theorem EndsClosed.withPower {r : PowerReading} (ends : r.EndsClosed)
    : r.withPower.EndsClosed := by
  cases r with
  | operand _ _ => exact ends
  | power _ _ | dangling _ | other _ => trivial

theorem EndsClosed.withSign {r : PowerReading} (ends : r.EndsClosed) (t : Token)
    : (r.withSign t).EndsClosed := by
  cases r with
  | operand chain _ => exact ends.append [t]
  | power _ _ | dangling _ | other _ => trivial

/-- Bracketing the powers of a layout relaxes. Witness: induction on the layout. -/
theorem relaxes_ofLayout (l : Layout)
    : (ofLayout l).EndsClosed ∧ ∀ signed, Relaxes signed (ofLayout l).whole.tokens l.tokens := by
  induction l with
  | nil => exact ⟨trivial, fun signed => .refl signed []⟩
  | group callee inner rest inner_ih ih =>
      obtain ⟨first, front, starts, ends, tokens⟩ :=
        Layout.tokens_group_eq callee (ofLayout inner).whole
      refine ⟨.withBase ends tokens _, fun signed => ?_⟩
      exact (relaxes_withBase starts tokens ih.1 signed).trans
        (Layout.relaxes_group callee (inner_ih.2 true) (ih.2 false) signed)
  | token t rest ih =>
      obtain ⟨ends, relaxes⟩ := ih
      have front (signed : Bool)
          : Relaxes signed (t :: (ofLayout rest).whole.tokens) (t :: rest.tokens) :=
        .cons (relaxes _) rfl signed
      unfold ofLayout
      split
      · rename_i operand
        have base_ends : Infix.EndsClosed [t] := ⟨[], t, rfl, allowsSign_of_isOperand operand⟩
        have tokens (l : Layout) : (Layout.token t l).tokens = t :: [] ++ l.tokens := rfl
        refine ⟨.withBase base_ends tokens _, fun signed => ?_⟩
        exact (relaxes_withBase (startsOperand_of_isOperand operand) tokens ends signed).trans
          (front signed)
      · split
        · rename_i power
          subst power
          exact ⟨ends.withPower, fun signed => by simpa using front signed⟩
        · split
          · exact ⟨ends.withSign t, fun signed => by simpa using front signed⟩
          · exact ⟨trivial, front⟩

end PowerReading

theorem relaxes_powersGrouped (signed : Bool) (tokens : List Token)
    : Relaxes signed (powersGrouped tokens) tokens := by
  simpa [powersGrouped] using (PowerReading.relaxes_ofLayout (.ofTokens tokens)).2 signed

--------------------------------------------------------------------------------
-- Signs
--------------------------------------------------------------------------------

namespace SignReading

/-- Where a reading was cut, an operand ends. -/
def EndsClosed : SignReading → Prop
  | operand first _ => Infix.EndsClosed first.tokens
  | other _ => True

/-- An operand that is subtracted from zero ends with the bracket behind it. -/
theorem EndsClosed.negated {r : SignReading} (ends : r.EndsClosed)
    : r.negated.EndsClosed := by
  cases r with
  | operand first rest =>
      simpa [SignReading.negated, EndsClosed]
        using endsClosed_closeBracket
          (.openBracket :: .number 0 :: .operator .sub :: first.tokens)
  | other whole => trivial

/-- Where a sign may stand, a minus may stand in the place of a subtraction from zero. -/
theorem relaxes_subtraction (tokens : List Token)
    : Relaxes true (.openBracket :: .number 0 :: .operator .sub :: tokens)
      (.operator .sub :: tokens) := by
  intro now next awaits reads
  cases now with
  | operand | arguments => exact ⟨next, reads, .refl next⟩
  | called | anything => cases awaits

/-- A plus may stand there too. -/
theorem relaxes_plus (tokens : List Token)
    : Relaxes true tokens (.operator .add :: tokens) := by
  intro now next awaits reads
  cases now with
  | operand | arguments => exact ⟨next, reads, .refl next⟩
  | called | anything => cases awaits

/-- A subtraction from zero may be left for the minus alone. Witness: its brackets and its zero may
be left out where a sign may stand.
-/
theorem relaxes_negated {r : SignReading} (ends : r.EndsClosed)
    : Relaxes true r.negated.whole.tokens (.operator .sub :: r.whole.tokens) := by
  cases r with
  | other whole => exact .refl true _
  | operand first rest =>
      have closed := EndsClosed.append ends [.openBracket, .number 0, .operator .sub]
      have subtraction :=
        (closed.relaxes_closeBracket true).trans (relaxes_subtraction first.tokens)
      simpa [negated, Layout.append]
        using subtraction.append fun signed => .refl signed rest.tokens

/-- Rewriting the signs of a layout relaxes. Witness: induction on the layout; the flag of the
reading tells where a sign may stand.
-/
theorem relaxes_ofLayout (signed : Bool) (l : Layout)
    : (ofLayout signed l).EndsClosed ∧ Relaxes signed (ofLayout signed l).whole.tokens l.tokens := by
  induction l generalizing signed with
  | nil => exact ⟨trivial, .refl signed []⟩
  | group callee inner rest inner_ih ih =>
      obtain ⟨first, front, -, ends, tokens⟩ :=
        Layout.tokens_group_eq callee (ofLayout true inner).whole
      have group := Layout.relaxes_group callee (inner_ih true).2 (ih false).2 signed
      rw [ofLayout]
      refine ⟨by simpa [EndsClosed, tokens] using ends, ?_⟩
      simpa [Layout.append] using group
  | token t rest ih =>
      unfold ofLayout
      split
      · rename_i plus
        obtain ⟨rfl, same⟩ := Bool.and_eq_true_iff.mp plus
        obtain rfl : t = .operator .add := by simpa using same
        obtain ⟨ends, relaxes⟩ := ih true
        exact ⟨ends, relaxes.trans (relaxes_plus rest.tokens)⟩
      · split
        · rename_i minus
          obtain ⟨rfl, same⟩ := Bool.and_eq_true_iff.mp minus
          obtain rfl : t = .operator .sub := by simpa using same
          obtain ⟨ends, relaxes⟩ := ih true
          exact ⟨ends.negated, (relaxes_negated ends).trans (.cons relaxes rfl true)⟩
        · split
          · rename_i operand
            have closed := allowsSign_of_isOperand operand
            exact ⟨⟨[], t, rfl, closed⟩, .cons (ih false).2 closed signed⟩
          · exact ⟨trivial, .cons (ih (allowsSign t)).2 rfl signed⟩

end SignReading

theorem relaxes_signsRewritten (tokens : List Token)
    : Relaxes true (signsRewritten tokens) tokens := by
  simpa [signsRewritten] using (SignReading.relaxes_ofLayout true (.ofTokens tokens)).2

/-- The passes make up for no missing operand. -/
theorem relaxes_explicit (tokens : List Token)
    : Relaxes true (explicit tokens) tokens :=
  (relaxes_signsRewritten _).trans
    ((relaxes_powersGrouped true _).trans (relaxes_multiplied true tokens))

end Infix

end Calculator
