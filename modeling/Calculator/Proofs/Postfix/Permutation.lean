import Calculator.Postfix.Conversion
import Calculator.Proofs.Sequencing

/-! Conversion to postfix order only rearranges: its output is a permutation of the tokens
that are neither brackets nor separators.
-/

namespace Calculator

/-- Whether a token has a place in postfix order. -/
def Token.isPostfix : Token → Bool
  | number _ | operator _ | function _ | constant _ => true
  | openBracket | closeBracket | separator => false

namespace Postfix

/-- The token that waits on the stack. A bracket only marks where a group begins. -/
def Waiting.token? : Waiting → Option Token
  | operator op => some (.operator op)
  | function f => some (.function f)
  | bracket _ => none

namespace Converter

/-- The tokens that wait on a stack, and those of the output. -/
def tokensOf (stack : List Waiting) (output : List Token) : List Token :=
  stack.filterMap Waiting.token? ++ output

/-- The tokens that a converter holds. -/
def tokens (c : Converter) : List Token :=
  tokensOf c.stack c.output

@[simp]
theorem tokensOf_operator (op : Operator) (stack : List Waiting) (output : List Token)
    : tokensOf (.operator op :: stack) output = .operator op :: tokensOf stack output :=
  rfl

@[simp]
theorem tokensOf_function (f : Function) (stack : List Waiting) (output : List Token)
    : tokensOf (.function f :: stack) output = .function f :: tokensOf stack output :=
  rfl

@[simp]
theorem tokensOf_bracket (arguments : Nat) (stack : List Waiting) (output : List Token)
    : tokensOf (.bracket arguments :: stack) output = tokensOf stack output :=
  rfl

/-- Moving a token from the stack to the output only rearranges. -/
theorem tokensOf_cons_perm (t : Token) (stack : List Waiting) (output : List Token)
    : (tokensOf stack (t :: output)).Perm (t :: tokensOf stack output) :=
  List.perm_middle

/-- Released operators go from the stack to the output. Witness: induction on the stack. -/
theorem releaseBefore_perm (op : Operator) (stack : List Waiting) (output : List Token)
    : (tokensOf (releaseBefore op stack output).1 (releaseBefore op stack output).2).Perm
      (tokensOf stack output) := by
  induction stack generalizing output with
  | nil => exact .rfl
  | cons top stack ih =>
      cases top with
      | operator waiting =>
          unfold releaseBefore
          split
          · exact (ih _).trans (tokensOf_cons_perm _ stack output)
          · exact .rfl
      | function f => exact .rfl
      | bracket arguments => exact .rfl

/-- So does all that is released down to a bracket. -/
theorem releaseToBracket_perm {stack below : List Waiting} {output complete : List Token}
    {arguments : Nat}
    (released : releaseToBracket stack output = some (arguments, below, complete))
    : (tokensOf below complete).Perm (tokensOf stack output) := by
  induction stack generalizing output with
  | nil => cases released
  | cons top stack ih =>
      cases top with
      | operator op => exact (ih released).trans (tokensOf_cons_perm _ stack output)
      | function f => exact (ih released).trans (tokensOf_cons_perm _ stack output)
      | bracket arguments =>
          cases released
          exact .rfl

/-- So does what is released at the end. -/
theorem releaseAll_perm {stack : List Waiting} {output complete : List Token}
    (released : releaseAll stack output = some complete)
    : complete.Perm (tokensOf stack output) := by
  induction stack generalizing output with
  | nil =>
      cases released
      exact .rfl
  | cons top stack ih =>
      cases top with
      | operator op => exact (ih released).trans (tokensOf_cons_perm _ stack output)
      | function f => exact (ih released).trans (tokensOf_cons_perm _ stack output)
      | bracket arguments => cases released

/-- The converter holds exactly the tokens that it was given and that are kept. A function
that was converted last waits on top of the stack.
-/
structure Keeps (given : List Token) (c : Converter) : Prop where
  tokens : c.tokens.Perm (given.filter Token.isPostfix)
  top : ∀ f, c.last = some (.function f) → c.stack.head? = some (.function f)

/-- Settling may complete a bare function. It keeps the tokens. -/
theorem Keeps.settle {given : List Token} {c d : Converter} (keeps : Keeps given c)
    {next : Option Token} (settled : c.settle next = .ok d)
    : d.tokens.Perm (given.filter Token.isPostfix) := by
  unfold Converter.settle at settled
  split at settled
  case h_1 f last =>
      split at settled
      · cases settled
        exact keeps.tokens
      · unfold callBare at settled
        split at settled
        · cases settled
        · cases settled
          have top := keeps.top f last
          obtain ⟨stack, same⟩ := List.head?_eq_some_iff.mp top
          have held : c.tokens = .function f :: tokensOf stack c.output := by
            rw [Converter.tokens, same, tokensOf_function]
          have moved := tokensOf_cons_perm (.function f) stack c.output
          rw [← held] at moved
          rw [if_pos top, same]
          exact moved.trans keeps.tokens
  case h_2 =>
      cases settled
      exact keeps.tokens

/-- The counters of brackets are no tokens. -/
theorem closingStack_tokens (c : Converter) (output : List Token)
    : tokensOf c.closingStack output = tokensOf c.stack output := by
  unfold closingStack
  split
  · rename_i last same
    rw [same]
    rfl
  · rfl

/-- A function that calls a group goes to the output with it. -/
theorem completeGroup_perm {c d : Converter} {arguments : Nat} {stack : List Waiting}
    {output : List Token} (completed : c.completeGroup arguments stack output = .ok d)
    : d.tokens.Perm (tokensOf stack output) := by
  unfold completeGroup at completed
  split at completed
  case h_1 f stack =>
      split at completed
      · cases completed
        exact tokensOf_cons_perm (.function f) stack output
      · cases completed
  case h_2 =>
      split at completed
      · cases completed
      · cases completed
        exact .rfl

/-- A token that is taken is kept, unless it is a bracket or a separator. -/
theorem take_perm {c d : Converter} {t : Token} (taken : c.take t = .ok d)
    : d.tokens.Perm ([t].filter Token.isPostfix ++ c.tokens) := by
  cases t with
  | number x =>
      cases taken
      exact tokensOf_cons_perm (.number x) c.stack c.output
  | constant x =>
      cases taken
      exact tokensOf_cons_perm (.constant x) c.stack c.output
  | operator op =>
      cases taken
      exact (releaseBefore_perm op c.stack c.output).cons (.operator op)
  | function f =>
      cases taken
      exact .rfl
  | openBracket =>
      cases taken
      exact .rfl
  | closeBracket =>
      change c.closeBracket = .ok d at taken
      unfold closeBracket at taken
      split at taken
      · cases taken
      · rename_i arguments stack output released
        have rearranged := releaseToBracket_perm released
        rw [closingStack_tokens] at rearranged
        exact (completeGroup_perm taken).trans rearranged
  | separator =>
      change c.separate = .ok d at taken
      unfold separate at taken
      split at taken
      · cases taken
      · rename_i arguments stack output released
        have rearranged := releaseToBracket_perm released
        cases taken
        exact rearranged

theorem push_eq_ok_iff {c d : Converter} {t : Token}
    : c.push t = .ok d
      ↔ ∃ settled taken, c.settle t = .ok settled ∧ settled.take t = .ok taken
          ∧ { taken with last := some t } = d := by
  simp [push, bind_eq_ok_iff]

/-- Pushing a token keeps it. Witness: the tokens of the steps; a function is put on top of
the stack.
-/
theorem Keeps.push {given : List Token} {c d : Converter} {t : Token} (keeps : Keeps given c)
    (pushed : c.push t = .ok d)
    : Keeps (given ++ [t]) d := by
  obtain ⟨settled, taken, settling, taking, rfl⟩ := push_eq_ok_iff.mp pushed
  constructor
  · have behind := (take_perm taking).trans ((keeps.settle settling).append_left _)
    rw [List.filter_append]
    exact behind.trans List.perm_append_comm
  · intro f same
    cases same
    cases taking
    rfl

end Converter

/-- The postfix order is a rearrangement of the infix tokens without brackets and separators.
Witness: the converter keeps the tokens it is given, and its end moves them to the output.
-/
theorem ofTokens_perm {given output : List Token} {s : State}
    (converted : ofTokens given s = .ok output)
    : output.Perm (given.filter Token.isPostfix) := by
  obtain ⟨c, run, finished⟩ := bind_eq_ok_iff.mp converted
  have step (past : List Token) (t : Token) (c d : Converter) (keeps : Converter.Keeps past c)
      (pushed : c.pushIn s t = .ok d)
      : Converter.Keeps (past ++ [t]) d := by
    unfold Converter.pushIn at pushed
    split at pushed
    · cases pushed
    · exact keeps.push pushed
  have start : Converter.Keeps [] {} := ⟨.rfl, by simp⟩
  have keeps := foldlM_preserves step start run
  obtain ⟨d, settling, finished⟩ := bind_eq_ok_iff.mp finished
  split at finished
  · rename_i complete released
    cases finished
    have moved := Converter.releaseAll_perm released
    exact ((List.reverse_perm complete).trans moved).trans (keeps.settle settling)
  · cases finished

/-- The postfix order holds no token that is not given. -/
theorem mem_of_ofTokens {given output : List Token} {s : State} {t : Token}
    (converted : ofTokens given s = .ok output) (member : t ∈ output)
    : t ∈ given :=
  (List.mem_filter.mp ((ofTokens_perm converted).mem_iff.mp member)).1

end Postfix

end Calculator
