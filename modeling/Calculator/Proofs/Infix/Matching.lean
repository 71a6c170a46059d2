import Calculator.Proofs.Infix.Layout
import Calculator.Proofs.Infix.Reading

/-! Brackets without a partner. Reading a token list matches as many brackets as possible, so a
group holds none that is left alone, and bracketing powers leaves none alone either.
-/

namespace Calculator.Infix

namespace Layout

/-- No bracket is without its partner. -/
def Closed : Layout → Prop
  | nil => True
  | token t rest => t ≠ .openBracket ∧ t ≠ .closeBracket ∧ rest.Closed
  | group _ inner rest => inner.Closed ∧ rest.Closed

/-- No bracket inside a group is without its partner. -/
def Matched : Layout → Prop
  | nil => True
  | token _ rest => rest.Matched
  | group _ inner rest => inner.Closed ∧ rest.Matched

theorem Closed.matched {l : Layout} (closed : l.Closed)
    : l.Matched := by
  induction l with
  | nil => trivial
  | token t rest ih => exact ih closed.2.2
  | group callee inner rest _ ih => exact ⟨closed.1, ih closed.2⟩

@[simp]
theorem closed_append {a b : Layout}
    : (a.append b).Closed ↔ a.Closed ∧ b.Closed := by
  induction a with
  | nil => simp [append, Closed]
  | token t rest ih => simp [append, Closed, ih, and_assoc]
  | group callee inner rest _ ih => simp [append, Closed, ih, and_assoc]

theorem Matched.append {a b : Layout} (a_h : a.Matched) (b_h : b.Matched)
    : (a.append b).Matched := by
  induction a with
  | nil => exact b_h
  | token t rest ih => exact ih a_h
  | group callee inner rest _ ih => exact ⟨a_h.1, ih a_h.2⟩

--------------------------------------------------------------------------------
-- Reading token lists
--------------------------------------------------------------------------------

/-- Only at the outermost level a bracket that opens can be without a partner: elsewhere the
bracket that closes the level is one.
-/
def Reading.Matched : Layout → List Layout → Prop
  | level, [] => level.Matched
  | level, next :: outer => level.Closed ∧ Matched next outer

/-- A token that is no bracket can be put in front of the innermost level. -/
theorem Reading.Matched.token {level : Layout} {outer : List Layout} {t : Token}
    (matched : Matched level outer) (opens : t ≠ .openBracket) (closes : t ≠ .closeBracket)
    : Matched (.token t level) outer := by
  cases outer with
  | nil => exact matched
  | cons next outer => exact ⟨⟨opens, closes, matched.1⟩, matched.2⟩

/-- Reading a token matches a bracket that opens with the innermost one that closes. -/
theorem Reading.matched_read (t : Token) {r : Reading} (matched : Matched r.level r.outer)
    : Matched (r.read t).level (r.read t).outer := by
  unfold read
  split
  · exact ⟨trivial, matched⟩
  · rename_i level next outer
    obtain ⟨closed, matched⟩ := matched
    cases outer with
    | nil => exact ⟨closed, matched⟩
    | cons later outer => exact ⟨⟨closed, matched.1⟩, matched.2⟩
  · rename_i inner rest outer
    cases outer with
    | nil => exact matched
    | cons next outer => exact matched
  · rename_i level outer closes opens _
    cases t with
    | openBracket =>
        cases outer with
        | nil => exact matched
        | cons next outer => exact (opens next outer rfl rfl).elim
    | closeBracket => exact (closes rfl).elim
    | _ => exact matched.token (by simp) (by simp)

theorem Reading.matched_close {level : Layout} {outer : List Layout}
    (matched : Matched level outer)
    : (close level outer).Matched := by
  induction outer generalizing level with
  | nil => exact matched
  | cons next outer ih => exact matched.1.matched.append (ih matched.2)

/-- Reading from the right keeps every level closed that a bracket closes. -/
theorem Reading.matched_foldr (tokens : List Token)
    : Matched (tokens.foldr read ⟨nil, []⟩).level (tokens.foldr read ⟨nil, []⟩).outer := by
  induction tokens with
  | nil => exact trivial
  | cons t rest ih => exact matched_read t ih

/-- The groups of a token list hold matched brackets only. -/
theorem matched_ofTokens (tokens : List Token)
    : (ofTokens tokens).Matched :=
  Reading.matched_close (Reading.matched_foldr tokens)

end Layout

--------------------------------------------------------------------------------
-- Brackets around powers
--------------------------------------------------------------------------------

namespace PowerReading

/-- A base with matched brackets goes in front, bracketed or not. -/
theorem closed_withBase {base : Layout → Layout} {r : PowerReading}
    (front : ∀ l : Layout, l.Closed → (base l).Closed) (closed : r.whole.Closed)
    : (r.withBase base).whole.Closed := by
  cases r with
  | power exponent rest =>
      obtain ⟨_, _, chain⟩ := closed
      obtain ⟨exponent_closed, rest_closed⟩ := Layout.closed_append.mp chain
      exact ⟨front _ ⟨by simp, by simp, exponent_closed⟩, rest_closed⟩
  | dangling rest => exact front _ closed
  | operand chain rest => exact Layout.closed_append.mpr ⟨front _ trivial, closed⟩
  | other whole => exact Layout.closed_append.mpr ⟨front _ trivial, closed⟩

/-- The brackets around powers leave every bracket with its partner. Witness: induction on the
layout; a power encloses a base and an exponent that are closed.
-/
theorem closed_ofLayout {l : Layout} (closed : l.Closed)
    : (ofLayout l).whole.Closed := by
  induction l with
  | nil => trivial
  | group callee inner rest inner_ih rest_ih =>
      exact closed_withBase (fun l behind => ⟨inner_ih closed.1, behind⟩) (rest_ih closed.2)
  | token t rest ih =>
      obtain ⟨opens, closes, rest_closed⟩ := closed
      have front (l : Layout) (behind : l.Closed) : (Layout.token t l).Closed :=
        ⟨opens, closes, behind⟩
      unfold ofLayout
      split
      · exact closed_withBase front (ih rest_closed)
      · split
        · rw [whole_withPower]
          exact ⟨by simp, by simp, ih rest_closed⟩
        · split
          · rw [whole_withSign]
            exact front _ (ih rest_closed)
          · exact front _ (ih rest_closed)

end PowerReading

end Calculator.Infix
