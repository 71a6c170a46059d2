import Mathlib.Data.List.Chain
import Calculator.Infix.Juxtaposition

/-! What the pass for omitted multiplication signs does to a token list: its output is
separated, and it works on the parts of a list independently of each other.
-/

namespace Calculator.Infix

/-- No multiplication sign is missing between any two neighbours. -/
def Separated (tokens : List Token) : Prop :=
  tokens.IsChain (fun left right => lacksSign left right = false)

@[simp]
theorem lacksSign_operator_left (op : Operator) (t : Token)
    : lacksSign (.operator op) t = false :=
  rfl

@[simp]
theorem lacksSign_operator_right (t : Token) (op : Operator)
    : lacksSign t (.operator op) = false := by
  cases t <;> rfl

@[simp]
theorem lacksSign_separator_left (t : Token)
    : lacksSign .separator t = false := by
  cases t <;> rfl

@[simp]
theorem lacksSign_separator_right (t : Token)
    : lacksSign t .separator = false := by
  cases t <;> rfl

@[simp]
theorem lacksSign_openBracket_left (t : Token)
    : lacksSign .openBracket t = false := by
  cases t <;> rfl

@[simp]
theorem lacksSign_closeBracket_right (t : Token)
    : lacksSign t .closeBracket = false := by
  cases t <;> rfl

@[simp]
theorem lacksSign_function_openBracket (f : Function)
    : lacksSign (.function f) .openBracket = false :=
  rfl

/-- Multiplications are put in behind the first token. -/
@[simp]
theorem head?_multiplied (tokens : List Token)
    : (multiplied tokens).head? = tokens.head? := by
  cases tokens with
  | nil => rfl
  | cons t rest =>
      change (prepend t (multiplied rest)).head? = some t
      unfold prepend
      split
      · rfl
      · split <;> rfl

@[simp]
theorem multiplied_nil : multiplied [] = [] :=
  rfl

@[simp]
theorem multiplied_singleton (t : Token) : multiplied [t] = [t] :=
  rfl

/-- What goes between two neighbours: the multiplication sign if it is missing. -/
def gap (left right : Token) : List Token :=
  if lacksSign left right then [.operator .mul] else []

/-- A token is followed by its gap to the next one. Witness: the output behind it begins with
the next token.
-/
theorem multiplied_cons_cons (t next : Token) (rest : List Token)
    : multiplied (t :: next :: rest) = t :: (gap t next ++ multiplied (next :: rest)) := by
  have head := head?_multiplied (next :: rest)
  change prepend t (multiplied (next :: rest)) = _
  cases h : multiplied (next :: rest) with
  | nil => simp [h] at head
  | cons first later =>
      obtain rfl : first = next := by simpa [h] using head
      simp only [prepend, gap]
      split <;> rfl

/-- Two parts of a list are treated independently, with a gap where they meet. Witness:
induction on the first part; only its last token meets the second part.
-/
theorem multiplied_append_cons_cons (init : List Token) (last first : Token)
    (rest : List Token)
    : multiplied (init ++ last :: first :: rest)
      = multiplied (init ++ [last]) ++ (gap last first ++ multiplied (first :: rest)) := by
  induction init with
  | nil => exact multiplied_cons_cons last first rest
  | cons t init ih =>
      cases init with
      | nil =>
          rw [List.nil_append, List.nil_append] at ih
          simp only [List.cons_append, List.nil_append, multiplied_cons_cons t last, ih,
            List.append_assoc]
      | cons next init =>
          rw [List.cons_append, List.cons_append] at ih
          simp only [List.cons_append, multiplied_cons_cons t next, ih, List.append_assoc]

theorem multiplied_append {left right : List Token} {last first : Token}
    (ends : left.getLast? = some last) (starts : right.head? = some first)
    : multiplied (left ++ right) = multiplied left ++ (gap last first ++ multiplied right) := by
  obtain ⟨init, rfl⟩ := List.getLast?_eq_some_iff.mp ends
  obtain ⟨rest, rfl⟩ := List.head?_eq_some_iff.mp starts
  simpa using multiplied_append_cons_cons init last first rest

/-- Two lists get their multiplications apart, if none is missing between them. -/
theorem multiplied_append_of_fits {left right : List Token}
    (fits : ∀ last ∈ left.getLast?, ∀ first ∈ right.head?, lacksSign last first = false)
    : multiplied (left ++ right) = multiplied left ++ multiplied right := by
  cases ends : left.getLast? with
  | none => simp [List.getLast?_eq_none_iff.mp ends]
  | some last =>
      cases starts : right.head? with
      | none => simp [List.head?_eq_none_iff.mp starts]
      | some first =>
          have fit : gap last first = [] := by simp [gap, fits last ends first starts]
          rw [multiplied_append ends starts, fit, List.nil_append]

theorem multiplied_cons_of_fits {t : Token} {rest : List Token}
    (fits : ∀ next ∈ rest.head?, lacksSign t next = false)
    : multiplied (t :: rest) = t :: multiplied rest :=
  @multiplied_append_of_fits [t] rest (by simpa using fits)

@[simp]
theorem multiplied_operator (op : Operator) (rest : List Token)
    : multiplied (.operator op :: rest) = .operator op :: multiplied rest :=
  multiplied_cons_of_fits (by simp)

@[simp]
theorem multiplied_separator (rest : List Token)
    : multiplied (.separator :: rest) = .separator :: multiplied rest :=
  multiplied_cons_of_fits (by simp)

@[simp]
theorem multiplied_openBracket (rest : List Token)
    : multiplied (.openBracket :: rest) = .openBracket :: multiplied rest :=
  multiplied_cons_of_fits (by simp)

@[simp]
theorem multiplied_call (f : Function) (rest : List Token)
    : multiplied (.function f :: .openBracket :: rest)
      = .function f :: .openBracket :: multiplied rest := by
  rw [multiplied_cons_of_fits (by simp), multiplied_openBracket]

/-- No multiplication sign is missing in the output. Witness: induction from the right; the
token put in front meets a multiplication sign or the first token behind it.
-/
theorem separated_multiplied (tokens : List Token)
    : Separated (multiplied tokens) := by
  induction tokens with
  | nil => exact .nil
  | cons t rest ih =>
      cases rest with
      | nil => exact .singleton t
      | cons next later =>
          rw [multiplied_cons_cons]
          unfold gap
          split
          · exact (ih.cons (by simp)).cons (by simp)
          · rename_i fits
            refine ih.cons ?_
            simpa using fits

end Calculator.Infix
