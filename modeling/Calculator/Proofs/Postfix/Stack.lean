import Calculator.Proofs.Infix.OpenBrackets

/-! What waits on the stack of the converter. Between brackets and functions the operators are in
the order of their precedence, a function waits below the bracket of its call, and the brackets are
those that the tokens leave open, each with its separators counted. So a release on the way to a
bracket only meets operators.
-/

namespace Calculator.Postfix

open Infix (openSeparators openSeparators_append_function openSeparators_of_nested)

--------------------------------------------------------------------------------
-- Neighbours on a stack
--------------------------------------------------------------------------------

/-- An operator may wait above another one: it binds tighter, or both are powers. -/
def Outbinds (upper lower : Operator) : Prop :=
  lower.precedence < upper.precedence ∨ (lower = .pow ∧ upper = .pow)

/-- An operator binds tighter than the one that stays below it, or both are power signs. -/
theorem outbinds_of_waiting {upper lower : Operator} (waits : lower.bindsBefore upper = false)
    : Outbinds upper lower := by
  obtain ⟨le, chain⟩ : lower.precedence ≤ upper.precedence
      ∧ (upper.precedence = lower.precedence → upper = .pow) := by
    simpa [Operator.bindsBefore, Operator.isRightAssociative] using waits
  rcases Nat.lt_or_eq_of_le le with lt | same
  · exact .inl lt
  · obtain rfl := chain same.symm
    refine .inr ⟨?_, rfl⟩
    cases lower <;> first | rfl | cases same

instance : IsTrans Operator Outbinds where
  trans upper between lower first second := by
    rcases first with lt | ⟨rfl, rfl⟩
    · rcases second with lt' | ⟨rfl, rfl⟩
      · exact .inl (Nat.lt_trans lt' lt)
      · exact .inl lt
    · exact second

/-- What may wait directly above something else. A function is only left for its bracket. -/
inductive RestsOn : Waiting → Waiting → Prop where
  | bracket (arguments : Nat) (lower : Waiting) : RestsOn (.bracket arguments) lower
  | onBracket (upper : Waiting) (arguments : Nat) : RestsOn upper (.bracket arguments)
  | operators {upper lower : Operator} (outbinds : Outbinds upper lower)
    : RestsOn (.operator upper) (.operator lower)
  | onOperator (f : Function) (op : Operator) : RestsOn (.function f) (.operator op)

/-- A stack in order. -/
def InLine (stack : List Waiting) : Prop :=
  stack.IsChain RestsOn

/-- A stack in order, without a function on top. -/
structure Settled (stack : List Waiting) : Prop where
  inLine : InLine stack
  free : ∀ f, stack.head? ≠ some (.function f)

section

variable {stack below : List Waiting} {output complete : List Token} {arguments : Nat}

theorem settled_nil
    : Settled [] :=
  ⟨.nil, by simp⟩

/-- A bracket may open above anything. -/
theorem InLine.bracket (inLine : InLine stack) (arguments : Nat)
    : Settled (.bracket arguments :: stack) :=
  ⟨List.isChain_cons.mpr ⟨fun _ _ => .bracket _ _, inLine⟩, by simp⟩

/-- A function may be given next where none waits for its bracket. -/
theorem Settled.function (settled : Settled stack) (f : Function)
    : InLine (.function f :: stack) := by
  refine List.isChain_cons.mpr ⟨fun lower head => ?_, settled.inLine⟩
  cases lower with
  | operator op => exact .onOperator f op
  | function g => exact absurd head (settled.free g)
  | bracket arguments => exact .onBracket _ arguments

/-- No function waits directly below another one, nor below an operator. -/
theorem InLine.tail_of_function {f : Function} (inLine : InLine (.function f :: stack))
    : Settled stack := by
  obtain ⟨above, tail⟩ := List.isChain_cons.mp inLine
  exact ⟨tail, fun g head => nomatch above _ head⟩

theorem Settled.tail_of_operator {op : Operator} (settled : Settled (.operator op :: stack))
    : Settled stack := by
  obtain ⟨above, tail⟩ := List.isChain_cons.mp settled.inLine
  exact ⟨tail, fun g head => nomatch above _ head⟩

/-- An operator waits above those that it outbinds, once the others are released. -/
theorem Settled.releaseBefore (settled : Settled stack) (op : Operator) (output : List Token)
    : Settled (.operator op :: (Converter.releaseBefore op stack output).1) := by
  induction stack generalizing output with
  | nil => exact ⟨.singleton _, by simp⟩
  | cons top stack ih =>
      cases top with
      | operator waiting =>
          unfold Converter.releaseBefore
          split
          · exact ih settled.tail_of_operator _
          · rename_i waits
            have outbinds := outbinds_of_waiting (by simpa using waits)
            exact ⟨List.isChain_cons_cons.mpr ⟨.operators outbinds, settled.inLine⟩, by simp⟩
      | function f => exact absurd rfl (settled.free f)
      | bracket arguments =>
          exact ⟨List.isChain_cons_cons.mpr ⟨.onBracket _ _, settled.inLine⟩, by simp⟩

/-- What is below the bracket that a release ends with is in order. -/
theorem Settled.releaseToBracket (settled : Settled stack)
    (released : Converter.releaseToBracket stack output = some (arguments, below, complete))
    : InLine below := by
  induction stack generalizing output with
  | nil => cases released
  | cons top stack ih =>
      cases top with
      | operator op => exact ih settled.tail_of_operator released
      | function f => exact absurd rfl (settled.free f)
      | bracket counted =>
          cases released
          exact settled.inLine.tail

end

/-- Above the innermost bracket there are operators only, and so they are without any bracket. -/
def OperatorsAbove (stack : List Waiting) : Prop :=
  ∃ (ops : List Operator) (rest : List Waiting), stack = ops.map .operator ++ rest
    ∧ (rest = [] ∨ ∃ arguments below, rest = .bracket arguments :: below)

/-- Above the topmost bracket only operators wait. Witness: induction on the stack; a function there
would be on top of it.
-/
theorem Settled.operatorsAbove {stack : List Waiting} (settled : Settled stack)
    : OperatorsAbove stack := by
  induction stack with
  | nil => exact ⟨[], [], rfl, .inl rfl⟩
  | cons top stack ih =>
      cases top with
      | operator op =>
          obtain ⟨ops, rest, rfl, ends⟩ := ih settled.tail_of_operator
          exact ⟨op :: ops, rest, rfl, ends⟩
      | function f => exact absurd rfl (settled.free f)
      | bracket arguments => exact ⟨[], _, rfl, .inr ⟨arguments, stack, rfl⟩⟩

--------------------------------------------------------------------------------
-- Converters whose stack is in order
--------------------------------------------------------------------------------

/-- The stack of a converter is in order, and a function is on top exactly if it was converted last.
-/
structure Ordered (c : Converter) : Prop where
  inLine : InLine c.stack
  top : ∀ f, c.stack.head? = some (.function f) ↔ c.last = some (.function f)

namespace Ordered

variable {c d : Converter}

theorem of_settled (settled : Settled c.stack) (last : ∀ f, c.last ≠ some (.function f))
    : Ordered c :=
  ⟨settled.inLine, fun f => iff_of_false (settled.free f) (last f)⟩

/-- Unless its bracket follows, the function on top is called. -/
theorem settle {next : Option Token} (ordered : Ordered c) (settled : c.settle next = .ok d)
    (other : next ≠ some .openBracket)
    : Settled d.stack := by
  unfold Converter.settle at settled
  split at settled
  · rename_i f last
    have top := (ordered.top f).mpr last
    rw [if_neg other] at settled
    unfold Converter.callBare at settled
    split at settled
    · cases settled
    · cases settled
      obtain ⟨stack, same⟩ := List.head?_eq_some_iff.mp top
      have inLine := ordered.inLine
      rw [same] at inLine
      simpa [same] using inLine.tail_of_function
  · rename_i free
    cases settled
    exact ⟨ordered.inLine, fun f head => free f ((ordered.top f).mp head)⟩

end Ordered

/-- Taking the arguments off an empty bracket changes no order. -/
theorem Settled.closingStack {c : Converter} (settled : Settled c.stack)
    : Settled c.closingStack := by
  unfold Converter.closingStack
  split
  · rename_i stack _ same
    have inLine := settled.inLine
    rw [same] at inLine
    exact InLine.bracket inLine.tail 0
  · exact settled

/-- Behind a group the function called on it has left the stack. -/
theorem InLine.completeGroup {c d : Converter} {stack : List Waiting} {output : List Token}
    {arguments : Nat} (inLine : InLine stack)
    (completed : c.completeGroup arguments stack output = .ok d)
    : Settled d.stack := by
  unfold Converter.completeGroup at completed
  split at completed
  case h_1 f stack =>
      split at completed
      · cases completed
        exact inLine.tail_of_function
      · cases completed
  case h_2 free =>
      split at completed
      · cases completed
      · cases completed
        refine ⟨inLine, fun f head => ?_⟩
        obtain ⟨rest, same⟩ := List.head?_eq_some_iff.mp head
        exact free f rest same

/-- A token other than a function leaves none on top. -/
theorem Settled.take {c d : Converter} {t : Token} (settled : Settled c.stack)
    (other : ∀ f, t ≠ .function f) (taken : c.take t = .ok d)
    : Settled d.stack := by
  cases t with
  | number x | constant x =>
      cases taken
      exact settled
  | operator op =>
      cases taken
      exact settled.releaseBefore op c.output
  | function f => exact absurd rfl (other f)
  | openBracket =>
      cases taken
      exact settled.inLine.bracket 1
  | closeBracket =>
      change c.closeBracket = .ok d at taken
      unfold Converter.closeBracket at taken
      split at taken
      · cases taken
      · rename_i arguments stack output released
        exact (settled.closingStack.releaseToBracket released).completeGroup taken
  | separator =>
      change c.separate = .ok d at taken
      unfold Converter.separate at taken
      split at taken
      · cases taken
      · rename_i arguments stack output released
        cases taken
        exact (settled.releaseToBracket released).bracket _

/-- Every token that is converted keeps the stack in order. -/
theorem Ordered.push {c d : Converter} {t : Token} (ordered : Ordered c) (pushed : c.push t = .ok d)
    : Ordered d := by
  obtain ⟨settled, taken, settling, taking, rfl⟩ := Converter.push_eq_ok_iff.mp pushed
  by_cases opens : t = .openBracket
  · subst opens
    obtain rfl : c = settled := by
      unfold Converter.settle at settling
      split at settling <;> simpa using settling
    cases taking
    exact of_settled (ordered.inLine.bracket 1) (by simp)
  · have settled_h := ordered.settle settling (by simpa using opens)
    by_cases function : ∃ f, t = .function f
    · obtain ⟨f, rfl⟩ := function
      cases taking
      exact ⟨settled_h.function f, fun g => by simp⟩
    · have other (f : Function) : t ≠ .function f := fun same => function ⟨f, same⟩
      have taken_h := settled_h.take other taking
      exact of_settled taken_h (by simpa using other)

--------------------------------------------------------------------------------
-- Brackets on a stack
--------------------------------------------------------------------------------

/-- The arguments that a bracket has counted. -/
def Waiting.arguments? : Waiting → Option Nat
  | bracket arguments => some arguments
  | _ => none

/-- The counts of the brackets on a stack, from the outside to the inside. -/
def counts (stack : List Waiting) : List Nat :=
  (stack.filterMap Waiting.arguments?).reverse

/-- The brackets on a stack are those that the tokens leave open, and each has counted one argument
more than it has separators.
-/
theorem Levels.counts_eq {stack : List Waiting} {w : List Token} (levels : Levels stack w)
    : counts stack = (openSeparators w).map (· + 1) := by
  induction levels with
  | outermost arranged =>
      rw [openSeparators_of_nested arranged.nested]
      rfl
  | operator op levels ih => exact ih
  | @group stack outer inner separators levels free arranged ih =>
      rw [arranged.openSeparators_append_openBracket, List.map_append, ← ih]
      simp [counts, Waiting.arguments?]
  | @call stack outer inner separators f levels arranged ih =>
      have whole := arranged.openSeparators_append_openBracket (outer ++ [.function f])
      rw [List.append_assoc, List.singleton_append] at whole
      rw [whole, openSeparators_append_function, List.map_append, ← ih]
      simp [counts, List.filterMap_cons, Waiting.arguments?]

/-- The counters on the stack are the numbers of separators in the open brackets, each with one
more.
-/
theorem Mirrors.counts_eq {given : List Token} {c : Converter} (mirrors : Mirrors given c)
    : counts c.stack = (openSeparators given).map (· + 1) := by
  by_cases pending : ∃ f, c.last = some (.function f)
  · obtain ⟨f, last⟩ := pending
    obtain ⟨before, stack, rfl, top, levels⟩ := mirrors.pending f last
    rw [top, openSeparators_append_function, ← levels.counts_eq]
    rfl
  · exact (mirrors.levels fun f last => pending ⟨f, last⟩).counts_eq

--------------------------------------------------------------------------------
-- The stack behind any tokens
--------------------------------------------------------------------------------

/-- What the stack of a converter holds behind the given tokens. Of several operators without
anything else between them, each one outbinds those below it. A function waits below the bracket of
its call, or it was converted last and is on top. The brackets are those that the tokens leave open,
in the same order, and each has counted one argument more than it has separators.
-/
structure Represents (given : List Token) (c : Converter) : Prop where
  operators : ∀ ops : List Operator, ops.map .operator <:+: c.stack → ops.Pairwise Outbinds
  functions
    : ∀ above f below, c.stack = above ++ .function f :: below
      → (above = [] ∧ c.last = some (.function f))
        ∨ ∃ further arguments, above = further ++ [.bracket arguments]
  brackets : counts c.stack = (openSeparators given).map (· + 1)

/-- Of operators that wait side by side, each outbinds all of those below it. -/
theorem InLine.pairwise {stack : List Waiting} (inLine : InLine stack) {ops : List Operator}
    (part : ops.map .operator <:+: stack)
    : ops.Pairwise Outbinds := by
  have neighbours : (ops.map Waiting.operator).IsChain RestsOn := List.IsChain.infix inLine part
  refine List.isChain_iff_pairwise.mp
    (((List.isChain_map _).mp neighbours).imp fun upper lower rests => ?_)
  cases rests with
  | operators outbinds => exact outbinds

/-- A function is on top of the stack and converted last, or a bracket is directly above it. -/
theorem Ordered.above_function {c : Converter} (ordered : Ordered c) {above below : List Waiting}
    {f : Function} (parts : c.stack = above ++ .function f :: below)
    : (above = [] ∧ c.last = some (.function f))
      ∨ ∃ further arguments, above = further ++ [.bracket arguments] := by
  rcases List.eq_nil_or_concat above with rfl | ⟨further, w, rfl⟩
  · exact .inl ⟨rfl, (ordered.top f).mp (by rw [parts]; rfl)⟩
  · right
    have part : [w, .function f] <:+: c.stack := ⟨further, below, by simp [parts]⟩
    have pair : [w, .function f].IsChain RestsOn := List.IsChain.infix ordered.inLine part
    cases List.isChain_pair.mp pair with
    | bracket arguments _ => exact ⟨further, arguments, by simp⟩

/-- Behind all tokens that were converted, the stack is in order and mirrors what they leave open.
-/
theorem invariant_of_run {given : List Token} {c : Converter}
    (run : given.foldlM Converter.push {} = .ok c)
    : Mirrors given c ∧ Ordered c := by
  have step (past : List Token) (t : Token) (c d : Converter) (holds : Mirrors past c ∧ Ordered c)
      (pushed : c.push t = .ok d)
      : Mirrors (past ++ [t]) d ∧ Ordered d :=
    ⟨holds.1.push pushed, holds.2.push pushed⟩
  have start : Mirrors [] {} := ⟨rfl, by simp, fun _ => .outermost .nil, by simp⟩
  have empty : Ordered {} := .of_settled settled_nil (by simp)
  exact foldlM_preserves step ⟨start, empty⟩ run

/-- The stack of the converter represents the tokens converted so far, whatever they are. Hence a
function that is called without brackets is always found on top, and whatever ends an operand, a
bracket that closes, a separator, or the end of the tokens, releases operators only. Witness: the
invariant of each converted token, which holds from the empty stack on.
-/
theorem represents_of_run {given : List Token} {c : Converter}
    (run : given.foldlM Converter.push {} = .ok c)
    : Represents given c
      ∧ (∀ f, c.last = some (.function f) → c.stack.head? = some (.function f))
      ∧ ∀ next settled, next ≠ some .openBracket → c.settle next = .ok settled
        → OperatorsAbove settled.stack ∧ OperatorsAbove settled.closingStack := by
  obtain ⟨mirrors, ordered⟩ := invariant_of_run run
  refine ⟨⟨fun _ part => ordered.inLine.pairwise part,
    fun _ _ _ parts => ordered.above_function parts, mirrors.counts_eq⟩,
    fun f last => (ordered.top f).mpr last, fun next settled other settling => ?_⟩
  have settled_h := ordered.settle settling other
  exact ⟨settled_h.operatorsAbove, settled_h.closingStack.operatorsAbove⟩

/-- Witness: the second argument of a call, in a group where a power waits for a function. -/
theorem represents_of_run_call
    : let given : List Token :=
        [.function .power, .openBracket, .number 1, .separator, .openBracket, .number 2,
          .operator .sub, .number 3, .operator .pow, .number 4, .operator .pow,
          .function (.nullary .current)]
      let stack : List Waiting :=
        [.function (.nullary .current), .operator .pow, .operator .pow, .operator .sub, .bracket 1,
          .bracket 2, .function .power]
      ∃ c : Converter, given.foldlM Converter.push {} = .ok c ∧ c.stack = stack
        ∧ Represents given c ∧ c.stack.head? = some (.function (.nullary .current)) := by
  intro given stack
  let c : Converter :=
    {
      stack
      output := [.number 4, .number 3, .number 2, .number 1]
      last := some (.function (.nullary .current))
    }
  have run : given.foldlM Converter.push {} = .ok c := rfl
  obtain ⟨represents, called, _⟩ := represents_of_run run
  exact ⟨c, run, rfl, represents, called _ rfl⟩

end Calculator.Postfix
