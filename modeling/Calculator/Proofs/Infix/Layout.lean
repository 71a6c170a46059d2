import Calculator.Infix.Layout

/-! The layout of a token list writes back the same list, whether its brackets match or not.
-/

namespace Calculator.Infix.Layout

@[simp]
theorem append_nil (l : Layout)
    : l.append .nil = l := by
  induction l with
  | nil => rfl
  | token t rest ih => simp [append, ih]
  | group callee inner rest _ ih => simp [append, ih]

@[simp]
theorem append_assoc (a b c : Layout)
    : (a.append b).append c = a.append (b.append c) := by
  induction a with
  | nil => rfl
  | token t rest ih => simp [append, ih]
  | group callee inner rest _ ih => simp [append, ih]

/-- Writing a layout in front of tokens is writing it and then the tokens. Witness: induction on the
layout, for every tail.
-/
theorem tokensBefore_eq (l : Layout) (tail : List Token)
    : l.tokensBefore tail = l.tokens ++ tail := by
  change _ = l.tokensBefore [] ++ tail
  induction l generalizing tail with
  | nil => rfl
  | token t rest ih =>
      simp only [tokensBefore, List.cons_append]
      rw [ih tail]
  | group callee inner rest inner_ih rest_ih =>
      simp only [tokensBefore]
      rw [inner_ih (.closeBracket :: rest.tokensBefore tail),
        inner_ih (.closeBracket :: rest.tokensBefore []), rest_ih tail]
      cases callee <;> simp only [List.cons_append, List.append_assoc]

@[simp]
theorem tokens_nil : nil.tokens = [] :=
  rfl

@[simp]
theorem tokens_token (t : Token) (rest : Layout)
    : (token t rest).tokens = t :: rest.tokens :=
  rfl

@[simp]
theorem tokens_group (callee : Option Function) (inner rest : Layout)
    : (group callee inner rest).tokens
      = (callee.map Token.function).toList
        ++ .openBracket :: inner.tokens ++ .closeBracket :: rest.tokens := by
  change (group callee inner rest).tokensBefore [] = _
  cases callee <;> simp [tokensBefore, tokensBefore_eq]

@[simp]
theorem tokens_append (a b : Layout)
    : (a.append b).tokens = a.tokens ++ b.tokens := by
  induction a with
  | nil => rfl
  | token t rest ih => simp [append, ih]
  | group callee inner rest _ ih => simp [append, ih]

namespace Reading

/-- The tokens that have been read. Each outer level stands behind a bracket that closes. -/
def tokens (r : Reading) : List Token :=
  r.level.tokens ++ r.outer.flatMap (fun l => .closeBracket :: l.tokens)

/-- Reading a token puts it in front. Witness: the cases of reading; a group forms only from
a bracket that closes.
-/
@[simp]
theorem tokens_read (t : Token) (r : Reading)
    : (r.read t).tokens = t :: r.tokens := by
  unfold read
  split <;> simp [tokens]

@[simp]
theorem tokens_close (level : Layout) (outer : List Layout)
    : (close level outer).tokens = (Reading.mk level outer).tokens := by
  induction outer generalizing level with
  | nil => simp [close, tokens]
  | cons next outer ih => simp [close, tokens, ih]

end Reading

/-- The layout of a token list writes back the list, by reading from right to left. -/
@[simp]
theorem tokens_ofTokens (ts : List Token)
    : (ofTokens ts).tokens = ts := by
  have read : (ts.foldr Reading.read ⟨nil, []⟩).tokens = ts := by
    induction ts with
    | nil => rfl
    | cons t rest ih => simp [ih]
  simpa [ofTokens] using read

end Calculator.Infix.Layout
