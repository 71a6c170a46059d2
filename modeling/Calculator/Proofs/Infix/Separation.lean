import Calculator.Proofs.Infix.Juxtaposition
import Calculator.Proofs.Infix.Layout
import Calculator.Proofs.Infix.Reading
import Calculator.Solve

/-! No multiplication sign is missing in the infix tokens that a text stands for. The pass for
multiplications writes out all signs, and the brackets of the later passes stand around whole
operands, next to which no sign was missing before.
-/

namespace Calculator.Infix

/-- No multiplication sign is missing between a token and the first one of those behind it. -/
def Fits (t : Token) (behind : List Token) : Prop :=
  ∀ next ∈ behind.head?, lacksSign t next = false

@[simp]
theorem fits_nil (t : Token)
    : Fits t [] := by
  simp [Fits]

@[simp]
theorem fits_cons (t next : Token) (rest : List Token)
    : Fits t (next :: rest) ↔ lacksSign t next = false := by
  simp [Fits]

@[simp]
theorem fits_openBracket (behind : List Token)
    : Fits .openBracket behind := by
  simp [Fits]

@[simp]
theorem fits_operator (op : Operator) (behind : List Token)
    : Fits (.operator op) behind := by
  simp [Fits]

@[simp]
theorem separated_nil : Separated [] :=
  .nil

theorem separated_cons {t : Token} {rest : List Token}
    : Separated (t :: rest) ↔ Fits t rest ∧ Separated rest :=
  List.isChain_cons

theorem separated_append {left right : List Token}
    : Separated (left ++ right)
      ↔ Separated left ∧ Separated right ∧ ∀ last ∈ left.getLast?, Fits last right :=
  List.isChain_append

/-- A closing bracket ends a list anywhere. -/
theorem separated_append_closeBracket {inner behind : List Token}
    : Separated (inner ++ .closeBracket :: behind)
      ↔ Separated inner ∧ Fits .closeBracket behind ∧ Separated behind := by
  simp [separated_append, separated_cons]

/-- The brackets of a group separate what is inside from what is around. -/
theorem separated_group {callee : Option Function} {inner rest : Layout}
    : Separated (Layout.group callee inner rest).tokens
      ↔ Separated inner.tokens ∧ Fits .closeBracket rest.tokens ∧ Separated rest.tokens := by
  have group
      : Separated (.openBracket :: inner.tokens ++ .closeBracket :: rest.tokens)
        ↔ Separated inner.tokens ∧ Fits .closeBracket rest.tokens ∧ Separated rest.tokens := by
    rw [separated_append_closeBracket, separated_cons, and_iff_right (fits_openBracket _)]
  cases callee with
  | none => simpa using group
  | some f => simpa [separated_cons] using group

/-- Where an operand may begin, a bracket may open. -/
theorem lacksSign_openBracket_of_fits {before first : Token}
    (begins : first.isValue = true ∨ first.isFunction = true ∨ first = .openBracket)
    (fits : lacksSign before first = false)
    : lacksSign before .openBracket = false := by
  cases before <;> cases first <;>
    simp_all [lacksSign, Token.isValue, Token.isFunction]

--------------------------------------------------------------------------------
-- Functions in front of their brackets
--------------------------------------------------------------------------------

namespace Layout

/-- Whether a layout begins with a group on which no function is called. -/
def startsFree : Layout → Bool
  | group none _ _ => true
  | _ => false

/-- Every function in front of a group is called on it. -/
def Joined : Layout → Prop
  | nil => True
  | token t rest => (t.isFunction = true → rest.startsFree = false) ∧ rest.Joined
  | group _ inner rest => inner.Joined ∧ rest.Joined

/-- Two layouts with their functions called stay so one behind the other, unless the second begins
with a group that could be called.
-/
theorem Joined.append {a b : Layout} (a_h : a.Joined) (b_h : b.Joined)
    (free : b.startsFree = false)
    : (a.append b).Joined := by
  induction a with
  | nil => exact b_h
  | token t rest ih =>
      refine ⟨?_, ih a_h.2⟩
      intro function
      have alone := a_h.1 function
      cases rest with
      | nil => exact free
      | token _ _ => rfl
      | group callee _ _ => cases callee <;> exact alone
  | group callee inner rest _ ih => exact ⟨a_h.1, ih a_h.2⟩

/-- Reading a token joins a function with the group that it is read in front of. -/
theorem Reading.joined_read (t : Token) {r : Reading}
    (joined : r.level.Joined ∧ ∀ l ∈ r.outer, l.Joined)
    : (r.read t).level.Joined ∧ ∀ l ∈ (r.read t).outer, l.Joined := by
  obtain ⟨level_h, outer_h⟩ := joined
  unfold read
  split
  · exact ⟨trivial, by simpa using ⟨level_h, outer_h⟩⟩
  · rename_i level next outer
    exact ⟨⟨level_h, outer_h next (by simp)⟩, fun l member => outer_h l (by simp [member])⟩
  · exact ⟨level_h, outer_h⟩
  · rename_i level outer closes opens calls
    refine ⟨⟨?_, level_h⟩, outer_h⟩
    intro function
    cases t with
    | function f =>
        cases level with
        | nil => rfl
        | token _ _ => rfl
        | group callee inner rest =>
            cases callee with
            | none => exact absurd rfl (calls f inner rest rfl)
            | some g => rfl
    | _ => cases function

/-- Closing the levels that are still open leaves every function called. Witness: induction on the
levels, each of them behind a bracket.
-/
theorem Reading.joined_close {level : Layout} {outer : List Layout} (level_h : level.Joined)
    (outer_h : ∀ l ∈ outer, l.Joined)
    : (close level outer).Joined := by
  induction outer generalizing level with
  | nil => exact level_h
  | cons next outer ih =>
      have rest := ih (outer_h next (by simp)) fun l member => outer_h l (by simp [member])
      have closing : (Layout.token .closeBracket (close next outer)).Joined := by
        refine ⟨?_, rest⟩
        intro function
        cases function
      exact level_h.append closing rfl

/-- In the layout of a token list every function in front of a group is called on it. -/
theorem joined_ofTokens (tokens : List Token)
    : (ofTokens tokens).Joined := by
  have read
      : (tokens.foldr Reading.read ⟨nil, []⟩).level.Joined
        ∧ ∀ l ∈ (tokens.foldr Reading.read ⟨nil, []⟩).outer, l.Joined := by
    induction tokens with
    | nil => exact ⟨trivial, by simp⟩
    | cons t rest ih => exact Reading.joined_read t ih
  exact Reading.joined_close read.1 read.2

/-- What may stand behind an operand may stand behind its closing bracket. -/
theorem Joined.fits_closeBracket {t : Token} {rest : Layout} (joined : (token t rest).Joined)
    (operand : isOperand t rest = true) (fits : Fits t rest.tokens)
    : Fits .closeBracket rest.tokens := by
  intro next head
  have fit := fits next head
  cases t with
  | number x | constant c => cases next <;> simp_all [lacksSign]
  | function f =>
      have bracket : next ≠ .openBracket := by
        intro same
        subst same
        cases rest with
        | nil => cases head
        | token u rest =>
            obtain rfl : u = .openBracket := by simpa using head
            simp [isOperand, Token.isValue, startsUnmatched] at operand
        | group callee inner rest =>
            cases callee with
            | none => exact absurd (joined.1 rfl) (by simp [startsFree])
            | some g => simp at head
      cases next <;> simp_all [lacksSign]
  | operator op | openBracket | closeBracket | separator =>
      simp [isOperand, Token.isValue, Token.isFunction] at operand

end Layout

--------------------------------------------------------------------------------
-- Brackets around powers
--------------------------------------------------------------------------------

namespace PowerReading

/-- Behind the operand that a reading was cut from, nothing begins another one. -/
def Cut : PowerReading → Prop
  | operand _ rest | power _ rest => Fits .closeBracket rest.tokens
  | dangling _ | other _ => True

/-- A reading of the tokens `read`: no sign is missing in it, and it fits wherever the tokens
do.
-/
structure Keeps (read : List Token) (r : PowerReading) : Prop where
  separated : Separated r.whole.tokens
  fits : ∀ before, Fits before read → Fits before r.whole.tokens
  cut : r.Cut

/-- No sign is missing behind a power sign. -/
theorem Keeps.withPower {read : List Token} {r : PowerReading} (keeps : Keeps read r)
    : Keeps (.operator .pow :: read) r.withPower := by
  refine ⟨?_, ?_, ?_⟩
  · simp [separated_cons, keeps.separated]
  · intro before _
    simp
  · have cut := keeps.cut
    cases r with
    | operand chain rest => exact cut
    | power _ _ | dangling _ | other _ => trivial

/-- Nor is one missing behind another sign. -/
theorem Keeps.withSign {read : List Token} {r : PowerReading} {t : Token} (sign : t.isSign = true)
    (keeps : Keeps read r)
    : Keeps (t :: read) (r.withSign t) := by
  obtain ⟨op, rfl⟩ : ∃ op, t = .operator op := by
    cases t <;> simp_all [Token.isSign]
  refine ⟨?_, ?_, ?_⟩
  · simp [separated_cons, keeps.separated]
  · intro before _
    simp
  · have cut := keeps.cut
    cases r with
    | operand chain rest => exact cut
    | power _ _ | dangling _ | other _ => trivial

/-- A base stands in front, with or without a bracket. Witness: the bracket opens where the
base begins, and it closes where the exponent was cut from the rest.
-/
theorem Keeps.withBase {base : Layout → Layout} {first : Token} {read others : List Token}
    {r : PowerReading} (front : List Token)
    (tokens : ∀ l, (base l).tokens = first :: front ++ l.tokens)
    (begins : first.isValue = true ∨ first.isFunction = true ∨ first = .openBracket)
    (separated : Separated (first :: front ++ r.whole.tokens))
    (closes : Fits .closeBracket r.whole.tokens) (keeps : Keeps read r)
    : Keeps (first :: others) (r.withBase base) := by
  cases r with
  | power exponent rest =>
      refine ⟨?_, ?_, keeps.cut⟩
      · have all
            : (PowerReading.withBase base (.power exponent rest)).whole.tokens
              = .openBracket :: (first :: front ++ .operator .pow :: exponent.tokens)
                ++ .closeBracket :: rest.tokens := by
          simp [PowerReading.withBase, whole, Layout.append, tokens]
        have cut
            : first :: front ++ (PowerReading.power exponent rest).whole.tokens
              = (first :: front ++ .operator .pow :: exponent.tokens) ++ rest.tokens := by
          simp [whole]
        rw [cut] at separated
        obtain ⟨inside, behind, _⟩ := separated_append.mp separated
        rw [all, separated_append_closeBracket, separated_cons]
        exact ⟨⟨fits_openBracket _, inside⟩, keeps.cut, behind⟩
      · intro before fits
        have fit : lacksSign before first = false := by simpa using fits
        simpa [PowerReading.withBase, whole, Layout.append]
          using lacksSign_openBracket_of_fits begins fit
  | dangling rest =>
      refine ⟨?_, ?_, trivial⟩
      · simpa [PowerReading.withBase, whole, tokens] using separated
      · intro before fits
        simpa [PowerReading.withBase, whole, tokens] using fits
  | operand chain rest =>
      refine ⟨?_, ?_, closes⟩
      · simpa [PowerReading.withBase, whole, tokens] using separated
      · intro before fits
        simpa [PowerReading.withBase, whole, tokens] using fits
  | other all =>
      refine ⟨?_, ?_, closes⟩
      · simpa [PowerReading.withBase, whole, tokens] using separated
      · intro before fits
        simpa [PowerReading.withBase, whole, tokens] using fits

/-- Bracketing the powers of a layout leaves its tokens separated. Witness: induction on the
layout.
-/
theorem keeps_ofLayout {l : Layout} (joined : l.Joined) (separated : Separated l.tokens)
    : Keeps l.tokens (ofLayout l) := by
  induction l with
  | nil => exact ⟨.nil, fun _ _ => fits_nil _, trivial⟩
  | group callee inner rest inner_ih rest_ih =>
      obtain ⟨inside, closes, behind⟩ := separated_group.mp separated
      have keeps := rest_ih joined.2 behind
      have closes := keeps.fits _ closes
      have group
          : Separated (Layout.group callee (ofLayout inner).whole (ofLayout rest).whole).tokens :=
        separated_group.mpr ⟨(inner_ih joined.1 inside).separated, closes, keeps.separated⟩
      unfold ofLayout
      cases callee with
      | none =>
          refine keeps.withBase ((ofLayout inner).whole.tokens ++ [.closeBracket]) ?_
            (.inr (.inr rfl)) ?_ closes
          · intro l
            simp
          · simpa using group
      | some f =>
          refine keeps.withBase
            (.openBracket :: (ofLayout inner).whole.tokens ++ [.closeBracket]) ?_
            (.inr (.inl rfl)) ?_ closes
          · intro l
            simp
          · simpa using group
  | token t rest ih =>
      obtain ⟨fits, behind⟩ := separated_cons.mp (by simpa using separated)
      have keeps := ih joined.2 behind
      have front : Separated (t :: (ofLayout rest).whole.tokens) :=
        separated_cons.mpr ⟨keeps.fits t fits, keeps.separated⟩
      unfold ofLayout
      split
      · rename_i operand
        have closes := keeps.fits _ (joined.fits_closeBracket operand fits)
        refine keeps.withBase [] (fun l => rfl) ?_ front closes
        simp only [Layout.isOperand, Bool.or_eq_true, Bool.and_eq_true] at operand
        exact operand.imp id fun function => .inl function.1
      · split
        · rename_i power
          subst power
          exact keeps.withPower
        · split
          · rename_i sign
            exact keeps.withSign sign
          · exact ⟨front, fun before fits => by simpa using fits, trivial⟩

end PowerReading

theorem separated_powersGrouped {tokens : List Token} (separated : Separated tokens)
    : Separated (powersGrouped tokens) := by
  refine (PowerReading.keeps_ofLayout (Layout.joined_ofTokens tokens) ?_).separated
  rwa [Layout.tokens_ofTokens]

--------------------------------------------------------------------------------
-- Signs
--------------------------------------------------------------------------------

namespace SignReading

/-- Behind the operand that a reading was cut from, nothing begins another one. -/
def Cut : SignReading → Prop
  | operand _ rest => Fits .closeBracket rest.tokens
  | other _ => True

/-- A reading of the tokens `read`: no sign is missing in it. Where a sign could stand anything
fits, and elsewhere the reading fits if the tokens do.
-/
structure Keeps (signed : Bool) (read : List Token) (r : SignReading) : Prop where
  separated : Separated r.whole.tokens
  fits : signed = false → ∀ before, Fits before read → Fits before r.whole.tokens
  cut : r.Cut

theorem fits_of_allowsSign {t : Token} (allowed : allowsSign t = true) (behind : List Token)
    : Fits t behind := by
  cases t with
  | operator _ | openBracket | separator => simp [Fits]
  | _ => cases allowed

/-- A minus becomes a subtraction in brackets around the operand that was cut. -/
theorem Keeps.negated {read others : List Token} {r : SignReading} (keeps : Keeps true read r)
    : Keeps true others r.negated := by
  cases r with
  | operand first rest =>
      refine ⟨?_, by simp, keeps.cut⟩
      have all
          : (SignReading.operand first rest).negated.whole.tokens
            = (.openBracket :: .number 0 :: .operator .sub :: first.tokens)
              ++ .closeBracket :: rest.tokens := by
        simp [SignReading.negated, Layout.append]
      have separated := keeps.separated
      rw [whole_operand, Layout.tokens_append] at separated
      obtain ⟨inside, behind, _⟩ := separated_append.mp separated
      rw [all, separated_append_closeBracket]
      refine ⟨?_, keeps.cut, behind⟩
      simpa [separated_cons] using inside
  | other all =>
      refine ⟨?_, by simp, trivial⟩
      simpa [SignReading.negated, separated_cons] using keeps.separated

/-- Rewriting the signs of a layout leaves its tokens separated. Witness: induction on the
layout; a sign is dropped only where anything fits.
-/
theorem keeps_ofLayout {l : Layout} (signed : Bool) (joined : l.Joined)
    (separated : Separated l.tokens)
    : Keeps signed l.tokens (ofLayout signed l) := by
  induction l generalizing signed with
  | nil => cases signed <;> exact ⟨.nil, fun _ _ _ => fits_nil _, trivial⟩
  | group callee inner rest inner_ih rest_ih =>
      obtain ⟨inside, closes, behind⟩ := separated_group.mp separated
      have keeps := rest_ih false joined.2 behind
      have closes := keeps.fits rfl _ closes
      have group
          : Separated
            (Layout.group callee (ofLayout true inner).whole (ofLayout false rest).whole).tokens :=
        separated_group.mpr ⟨(inner_ih true joined.1 inside).separated, closes, keeps.separated⟩
      rw [ofLayout]
      refine ⟨by simpa [Layout.append] using group, ?_, closes⟩
      intro _ before fits
      cases callee <;> simpa [Layout.append] using fits
  | token t rest ih =>
      obtain ⟨fits, behind⟩ := separated_cons.mp (by simpa using separated)
      unfold ofLayout
      split
      · rename_i plus
        obtain rfl : signed = true := (Bool.and_eq_true_iff.mp plus).1
        have keeps := ih true joined.2 behind
        exact ⟨keeps.separated, by simp, keeps.cut⟩
      · split
        · rename_i minus
          obtain rfl : signed = true := (Bool.and_eq_true_iff.mp minus).1
          exact (ih true joined.2 behind).negated
        · split
          · rename_i operand
            have keeps := ih false joined.2 behind
            have closes := keeps.fits rfl _ (joined.fits_closeBracket operand fits)
            refine ⟨?_, ?_, closes⟩
            · exact separated_cons.mpr ⟨keeps.fits rfl t fits, keeps.separated⟩
            · intro _ before fits
              simpa [Layout.append] using fits
          · have keeps := ih (allowsSign t) joined.2 behind
            refine ⟨separated_cons.mpr ⟨?_, keeps.separated⟩, ?_, trivial⟩
            · cases allowed : allowsSign t with
              | true => exact fits_of_allowsSign allowed _
              | false =>
                  rw [allowed] at keeps
                  exact keeps.fits rfl t fits
            · intro _ before fits
              simpa using fits

end SignReading

theorem separated_signsRewritten {tokens : List Token} (separated : Separated tokens)
    : Separated (signsRewritten tokens) := by
  refine (SignReading.keeps_ofLayout true (Layout.joined_ofTokens tokens) ?_).separated
  rwa [Layout.tokens_ofTokens]

/-- No multiplication sign is missing in the infix tokens that a text stands for. -/
theorem separated_explicit (tokens : List Token)
    : Separated (explicit tokens) :=
  separated_signsRewritten (separated_powersGrouped (separated_multiplied tokens))

end Calculator.Infix
