import Calculator.Proofs.Infix.Pairing

/-! The boundaries of operands. Tables over the positions of a token list, each of them filled in a
single run, give the same boundaries as scanning the list again for each operand, and so the
brackets of the later passes stand where the tables say.
-/

namespace Calculator.Infix

open SignReading (allowsSign)

--------------------------------------------------------------------------------
-- Tables
--------------------------------------------------------------------------------

/-- A table over the positions of a list from position `i` on, which is filled from right to left.
An entry is made from its position, from the token there, and from the entries behind it.
-/
def fillTable {α : Type} (entry : Nat → Token → List α → α) (last : List α)
    : Nat → List Token → List α
  | _, [] => last
  | i, t :: rest =>
      let later := fillTable entry last (i + 1) rest
      entry i t later :: later

/-- A sign has the entry of the position behind it, and any other token its own position. -/
def signEntry (i : Nat) (t : Token) (later : List Nat) : Nat :=
  if t.isSign then later.headD i else i

/-- The first position at or behind each position whose token is no sign, or the end of the list. -/
def unsigned (tokens : List Token) : List Nat :=
  fillTable signEntry [tokens.length] 0 tokens

/-- The end of the operand without signs that begins at a position. A group ends behind its partner,
which the layout gives.
-/
def unsignedEnd? (tokens : List Token) (k : Nat) : Option Nat :=
  match tokens[k]? with
  | some .openBracket => (partner? tokens k).map (· + 1)
  | some (.function _) =>
      if tokens[k + 1]? = some .openBracket then (partner? tokens (k + 1)).map (· + 1)
      else some (k + 1)
  | some (.number _) | some (.constant _) => some (k + 1)
  | _ => none

/-- The end of the operand that begins at a position. -/
def operandEnd? (tokens : List Token) (start : Nat) : Option Nat :=
  (unsigned tokens)[start]?.bind (unsignedEnd? tokens)

/-- The first position of the operand whose last one is given. A function directly in front of a
group belongs to it.
-/
def operandStart? (tokens : List Token) (last : Nat) : Option Nat :=
  match tokens[last]? with
  | some .closeBracket =>
      (partner? tokens last).map fun opening =>
        if 0 < opening ∧ tokens[opening - 1]?.any Token.isFunction = true then opening - 1
        else opening
  | some (.number _) | some (.constant _) | some (.function _) => some last
  | _ => none

/-- The end of the chain behind a power sign. Where its exponent ends at the next power sign, that
one has the same entry.
-/
def powerEntry (tokens : List Token) (i : Nat) (t : Token) (later : List (Option Nat))
    : Option Nat :=
  if t = .operator .pow then
    (operandEnd? tokens (i + 1)).bind fun stop =>
      if tokens[stop]? = some (.operator .pow) then later[stop - (i + 1)]?.join else some stop
  else
    none

/-- The end of the chain behind the power sign at a position. -/
def chainEnd? (tokens : List Token) (i : Nat) : Option Nat :=
  (fillTable (powerEntry tokens) [] 0 tokens)[i]?.join

--------------------------------------------------------------------------------
-- Scans
--------------------------------------------------------------------------------

/-- The end of the operand that is scanned from a position on. -/
def scannedEnd? (tokens : List Token) (start : Nat) : Option Nat :=
  (operandLength? (tokens.drop start)).map (start + ·)

/-- The first position of the operand that is scanned from its last one on, to the left. -/
def scannedStart? (tokens : List Token) (last : Nat) : Option Nat :=
  (operandBefore? (tokens.take (last + 1)).reverse).map (last + 1 - ·)

/-- The chain behind a power sign is scanned operand by operand, as long as power signs follow. It
has no end where an operand is missing behind one of them.
-/
inductive ScannedChain (tokens : List Token) : Nat → Option Nat → Prop where
  | dangling {i : Nat} (missing : scannedEnd? tokens (i + 1) = none)
    : ScannedChain tokens i none
  | last {i stop : Nat} (exponent : scannedEnd? tokens (i + 1) = some stop)
    (ends : tokens[stop]? ≠ some (.operator .pow))
    : ScannedChain tokens i (some stop)
  | next {i stop : Nat} {result : Option Nat} (exponent : scannedEnd? tokens (i + 1) = some stop)
    (power : tokens[stop]? = some (.operator .pow)) (behind : ScannedChain tokens stop result)
    : ScannedChain tokens i result

--------------------------------------------------------------------------------
-- Entries of tables
--------------------------------------------------------------------------------

/-- A table has one entry for each token, besides those that it begins with. -/
theorem length_fillTable {α : Type} (entry : Nat → Token → List α → α) (last : List α)
    (tokens : List Token) (i : Nat)
    : (fillTable entry last i tokens).length = tokens.length + last.length := by
  induction tokens generalizing i with
  | nil => simp [fillTable]
  | cons t rest ih => simp [fillTable, ih, Nat.add_right_comm]

/-- Behind some tokens a table has the entries of the other tokens. -/
theorem drop_fillTable {α : Type} (entry : Nat → Token → List α → α) (last : List α)
    (front rest : List Token) (i : Nat)
    : (fillTable entry last i (front ++ rest)).drop front.length
      = fillTable entry last (i + front.length) rest := by
  induction front generalizing i with
  | nil => rfl
  | cons t front ih =>
      rw [List.length_cons, ← Nat.add_assoc, Nat.add_right_comm]
      exact ih (i + 1)

/-- The first entry of the table of signs passes all signs that a list begins with. -/
theorem head?_fillTable_signEntry (rest : List Token) (i : Nat)
    : (fillTable signEntry [i + rest.length] i rest).head?
      = some (i + (rest.takeWhile Token.isSign).length) := by
  induction rest generalizing i with
  | nil => rfl
  | cons t rest ih =>
      have behind := ih (i + 1)
      rw [Nat.add_right_comm, Nat.add_assoc] at behind
      cases sign : t.isSign with
      | false => simp [fillTable, signEntry, sign]
      | true =>
          rw [List.takeWhile_cons_of_pos sign, List.length_cons, List.length_cons]
          simp only [fillTable, signEntry, sign, if_true, List.headD_eq_head?_getD, behind,
            Option.getD_some, List.head?_cons]
          exact congrArg some (by omega)

/-- So does the entry at any position, for the rest of the list. -/
theorem unsigned_append (front rest : List Token)
    : (unsigned (front ++ rest))[front.length]?
      = some (front.length + (rest.takeWhile Token.isSign).length) := by
  have entries := drop_fillTable signEntry [front.length + rest.length] front rest 0
  rw [Nat.zero_add] at entries
  rw [unsigned, List.length_append, ← head?_fillTable_signEntry, ← entries, List.head?_drop]

/-- As long as a list begins with signs, it goes on with the first token that is none. -/
theorem isLeast_length_takeWhile (tokens : List Token)
    : IsLeast {n | tokens[n]?.any Token.isSign = false}
      (tokens.takeWhile Token.isSign).length := by
  induction tokens with
  | nil => exact ⟨rfl, fun n _ => Nat.zero_le n⟩
  | cons t rest ih =>
      cases sign : t.isSign with
      | false =>
          rw [List.takeWhile_cons_of_neg (by simp [sign])]
          exact ⟨by simp [sign], fun n _ => Nat.zero_le n⟩
      | true =>
          rw [List.takeWhile_cons_of_pos sign]
          exact (isLeast_iff_of_succ (by simp [sign]) fun m => by simp).mpr ⟨_, ih, rfl⟩

/-- The table of signs gives the first position at or behind another that holds no sign. -/
theorem exists_unsigned {tokens : List Token} {k : Nat} (le : k ≤ tokens.length)
    : ∃ n, (unsigned tokens)[k]? = some n
        ∧ IsLeast {n | k ≤ n ∧ tokens[n]?.any Token.isSign = false} n := by
  obtain ⟨front, rest, rfl, rfl⟩ : ∃ front rest, tokens = front ++ rest ∧ k = front.length :=
    ⟨tokens.take k, tokens.drop k, by simp, by simp [le]⟩
  have behind (n : Nat) : (front ++ rest)[front.length + n]? = rest[n]? := by
    simp [List.getElem?_append_right]
  obtain ⟨ends, least⟩ := isLeast_length_takeWhile rest
  refine ⟨_, unsigned_append front rest, ⟨Nat.le_add_right .., ?_⟩, ?_⟩
  · rwa [behind]
  · rintro n ⟨le, other⟩
    obtain ⟨m, rfl⟩ := Nat.exists_eq_add_of_le le
    rw [behind] at other
    exact Nat.add_le_add_left (least other) _

--------------------------------------------------------------------------------
-- Operands
--------------------------------------------------------------------------------

/-- By the partners an operand without signs ends where scanning it ends. Witness: cases of its
first token; a function is scanned together with the group behind it.
-/
theorem unsignedEnd?_append (front : List Token) {t : Token} (sign : t.isSign = false)
    (rest : List Token)
    : unsignedEnd? (front ++ t :: rest) front.length
      = (operandLength? (t :: rest)).map (front.length + ·) := by
  have here : (front ++ t :: rest)[front.length]? = some t := by simp
  unfold unsignedEnd?
  rw [here]
  cases t with
  | openBracket =>
      simp [partner?_append, scannedPartner?, operandLength?, Function.comp_def, Nat.add_assoc]
  | function f =>
      have behind : (front ++ .function f :: rest)[front.length + 1]? = rest.head? := by
        simp [List.getElem?_append_right, List.head?_eq_getElem?]
      simp only [behind]
      split
      · rename_i opens
        obtain ⟨rest, rfl⟩ := List.head?_eq_some_iff.mp opens
        have partner := partner?_append (front ++ [.function f]) .openBracket rest
        simp only [List.append_assoc, List.singleton_append, List.length_append,
          List.length_singleton, scannedPartner?, List.length_reverse] at partner
        rw [partner, operandLength?, Option.map_map, Option.map_map]
        refine Option.map_congr fun n _ => ?_
        simp only [Function.comp]
        omega
      · rename_i alone
        rw [operandLength?_function alone]
        rfl
  | operator op => simp [operandLength?, sign]
  | number x | constant c | closeBracket | separator => rfl

/-- By the tables an operand ends where scanning it ends. Witness: induction on the signs that it
begins with.
-/
theorem operandEnd?_append (front rest : List Token)
    : operandEnd? (front ++ rest) front.length
      = (operandLength? rest).map (front.length + ·) := by
  rw [operandEnd?, unsigned_append, Option.bind_some]
  induction rest generalizing front with
  | nil => simp [unsignedEnd?, operandLength?]
  | cons t rest ih =>
      cases sign : t.isSign with
      | false =>
          rw [List.takeWhile_cons_of_neg (by simp [sign])]
          exact unsignedEnd?_append front sign rest
      | true =>
          have behind := ih (front ++ [t])
          rw [List.append_assoc, List.singleton_append, List.length_append, List.length_singleton,
            Nat.add_assoc, Nat.add_comm 1] at behind
          rw [List.takeWhile_cons_of_pos sign, List.length_cons, behind,
            operandLength?_sign sign, Option.map_map]
          refine Option.map_congr fun n _ => ?_
          simp only [Function.comp]
          omega

/-- Behind a token the operand is scanned from the next one on. -/
theorem operandEnd?_append_cons (front : List Token) (t : Token) (rest : List Token)
    : operandEnd? (front ++ t :: rest) (front.length + 1)
      = (operandLength? rest).map (front.length + 1 + ·) := by
  have behind := operandEnd?_append (front ++ [t]) rest
  rwa [List.append_assoc, List.singleton_append, List.length_append, List.length_singleton]
    at behind

/-- The end by the tables is the scanned one, also behind the end of the list. -/
theorem operandEnd?_eq_scannedEnd? (tokens : List Token) (start : Nat)
    : operandEnd? tokens start = scannedEnd? tokens start := by
  by_cases le : start ≤ tokens.length
  · have scanned := operandEnd?_append (tokens.take start) (tokens.drop start)
    rwa [List.take_append_drop, List.length_take, Nat.min_eq_left le] at scanned
  · have outside : (unsigned tokens)[start]? = none := by
      rw [unsigned, List.getElem?_eq_none_iff, length_fillTable, List.length_singleton]
      omega
    rw [operandEnd?, outside, scannedEnd?, List.drop_eq_nil_of_le (by omega)]
    rfl

/-- An operand has a token. -/
theorem operandLength?_pos {tokens : List Token} {n : Nat} (found : operandLength? tokens = some n)
    : 0 < n := by
  rw [Nat.pos_iff_ne_zero]
  rintro rfl
  unfold operandLength? at found
  split at found <;> simp at found

/-- An operand ends behind its beginning, and inside the list. -/
theorem scannedEnd?_bounds {tokens : List Token} {start stop : Nat}
    (found : scannedEnd? tokens start = some stop)
    : start < stop ∧ stop ≤ tokens.length := by
  obtain ⟨n, operand, rfl⟩ := Option.map_eq_some_iff.mp found
  have positive := operandLength?_pos operand
  obtain ⟨front, rest, parts, rfl, _⟩ := begins_operand operand
  have length := congrArg List.length parts
  rw [List.length_drop, List.length_append] at length
  omega

/-- By the partners an operand begins where scanning it to the left ends. Witness: cases of its last
token; from right to left, what stands in front of the partner of a bracket is the function called
on the group.
-/
theorem operandStart?_append (front : List Token) (t : Token) (back : List Token)
    : operandStart? (front ++ t :: back) front.length
      = (operandBefore? (t :: front.reverse)).map (front.length + 1 - ·) := by
  have here : (front ++ t :: back)[front.length]? = some t := by simp
  unfold operandStart?
  rw [here]
  cases t with
  | closeBracket =>
      rw [partner?_append, scannedPartner?, operandBefore?]
      cases group : groupBefore? front.reverse with
      | none => rfl
      | some n =>
          obtain ⟨inner, rest, parts, rfl, _⟩ := exists_of_groupBefore? group
          obtain rfl : front = rest.reverse ++ .openBracket :: inner := by
            simpa using congrArg List.reverse parts
          have called
              : (0 < rest.length
                  ∧ (rest.reverse ++ .openBracket :: inner ++ .closeBracket :: back)[
                      rest.length - 1]?.any Token.isFunction = true)
                ↔ rest.head?.any Token.isFunction = true := by
            cases rest with
            | nil => simp
            | cons t rest => simp
          have opening
              : (inner.reverse ++ Token.openBracket :: rest).length - (inner.length + 1)
                = rest.length := by
            rw [List.length_append, List.length_reverse, List.length_cons]
            omega
          rw [parts]
          simp only [Option.map_some, opening, called, getElem?_reverse_append]
          refine congrArg some ?_
          rw [List.length_append, List.length_reverse, List.length_cons]
          split <;> omega
  | number x | constant c | function f => simp [operandBefore?]
  | operator op | openBracket | separator => rfl

/-- The beginning by the tables is the scanned one, at every position of the list. -/
theorem operandStart?_eq_scannedStart? {tokens : List Token} {last : Nat}
    (lt : last < tokens.length)
    : operandStart? tokens last = scannedStart? tokens last := by
  obtain ⟨front, t, back, rfl, rfl⟩ := exists_append_of_lt lt
  have read : (front ++ t :: back).take (front.length + 1) = front ++ [t] := by
    rw [List.take_length_add_append]
    rfl
  rw [operandStart?_append, scannedStart?, read, List.reverse_concat]

--------------------------------------------------------------------------------
-- Chains
--------------------------------------------------------------------------------

/-- The chain behind a power sign ends with the exponent, unless it goes on behind that. -/
theorem chainEnd?_pow {tokens : List Token} {i : Nat} (power : tokens[i]? = some (.operator .pow))
    : chainEnd? tokens i
      = (scannedEnd? tokens (i + 1)).bind fun stop =>
          if tokens[stop]? = some (.operator .pow) then chainEnd? tokens stop else some stop := by
  obtain ⟨lt, same⟩ := List.getElem?_eq_some_iff.mp power
  obtain ⟨front, t, back, parts, rfl⟩ := exists_append_of_lt lt
  obtain rfl : t = .operator .pow := by simpa [parts] using same
  let later := fillTable (powerEntry tokens) [] (front.length + 1) back
  have entries (n : Nat)
      : (fillTable (powerEntry tokens) [] 0 tokens)[front.length + n]?
        = (powerEntry tokens front.length (.operator .pow) later :: later)[n]? := by
    have rest := drop_fillTable (powerEntry tokens) [] front (.operator .pow :: back) 0
    rw [← parts, Nat.zero_add] at rest
    rw [← List.getElem?_drop, rest]
    rfl
  have here : chainEnd? tokens front.length
      = powerEntry tokens front.length (.operator .pow) later :=
    congrArg Option.join (entries 0)
  rw [here, powerEntry, if_pos rfl, operandEnd?_eq_scannedEnd?]
  cases exponent : scannedEnd? tokens (front.length + 1) with
  | none => rfl
  | some stop =>
      obtain ⟨m, rfl⟩ := Nat.exists_eq_add_of_lt (scannedEnd?_bounds exponent).1
      have length : front.length + 1 + m + 1 - (front.length + 1) = m + 1 := by omega
      have behind : chainEnd? tokens (front.length + 1 + m + 1) = later[m + 1]?.join := by
        rw [Nat.add_assoc, Nat.add_assoc, Nat.add_comm 1, chainEnd?, entries,
          List.getElem?_cons_succ]
      rw [Option.bind_some, Option.bind_some, length, behind]

/-- The table of chains has the ends of the chains that are scanned. Witness: induction on the
number of tokens behind the power sign, and on the chain.
-/
theorem chainEnd?_eq_iff {tokens : List Token} {i : Nat}
    (power : tokens[i]? = some (.operator .pow)) {result : Option Nat}
    : chainEnd? tokens i = result ↔ ScannedChain tokens i result := by
  constructor
  · rintro rfl
    induction behind : tokens.length - i using Nat.strong_induction_on generalizing i with
    | h size ih =>
        rw [chainEnd?_pow power]
        cases exponent : scannedEnd? tokens (i + 1) with
        | none => exact .dangling exponent
        | some stop =>
            rw [Option.bind_some]
            split
            · rename_i next
              have bounds := scannedEnd?_bounds exponent
              exact .next exponent next (ih _ (by omega) next rfl)
            · rename_i ends
              exact .last exponent ends
  · intro chain
    induction chain with
    | dangling missing => rw [chainEnd?_pow power, missing, Option.bind_none]
    | last exponent ends => rw [chainEnd?_pow power, exponent, Option.bind_some, if_neg ends]
    | next exponent next _ ih =>
        rw [chainEnd?_pow power, exponent, Option.bind_some, if_pos next, ih next]

/-- The table of chains and the length of a chain have the same end. Witness: induction on the
number of tokens behind the power sign.
-/
theorem chainEnd?_append (front rest : List Token)
    : chainEnd? (front ++ .operator .pow :: rest) front.length
      = (chainLength? rest).map (front.length + 1 + ·) := by
  induction length : rest.length using Nat.strong_induction_on generalizing front rest with
  | h size ih =>
      have power : (front ++ .operator .pow :: rest)[front.length]? = some (.operator .pow) := by
        simp
      rw [chainEnd?_pow power, ← operandEnd?_eq_scannedEnd?, operandEnd?_append_cons]
      cases found : operandLength? rest with
      | none => simp [chainLength?, found]
      | some n =>
          obtain ⟨exponent, behind, rfl, rfl, _⟩ := begins_operand found
          rw [chainLength?_of_operand found, Option.map_some, Option.bind_some]
          have next : (front ++ .operator .pow :: (exponent ++ behind))[
              front.length + 1 + exponent.length]? = behind.head? := by
            rw [Nat.add_assoc, Nat.add_comm 1, List.getElem?_append_right (Nat.le_add_right ..),
              Nat.add_sub_cancel_left, List.getElem?_cons_succ,
              List.getElem?_append_right (Nat.le_refl _), Nat.sub_self, List.head?_eq_getElem?]
          rw [next]
          split
          · rename_i continues
            obtain ⟨more, rfl⟩ := List.head?_eq_some_iff.mp continues
            have chain := ih more.length (by simp at length; omega)
              (front ++ .operator .pow :: exponent) more rfl
            rw [List.append_assoc, List.cons_append, List.length_append, List.length_cons] at chain
            rw [Nat.add_assoc, Nat.add_comm 1, chain, powersLength?_pow, Option.map_map,
              Option.map_map]
            refine Option.map_congr fun n _ => ?_
            simp only [Function.comp]
            omega
          · rename_i ends
            simp [powersLength?_of_ne ends]

--------------------------------------------------------------------------------
-- Brackets of the passes
--------------------------------------------------------------------------------

/-- What the power sign at a position takes: the operand in front of it and the whole chain behind
it.
-/
def tablePowerSpan? (tokens : List Token) (i : Nat) : Option Span :=
  if 0 < i ∧ tokens[i]? = some (.operator .pow) then
    (operandStart? tokens (i - 1)).bind fun first =>
      (chainEnd? tokens i).map fun stop => ⟨first, stop⟩
  else
    none

/-- What the minus at a position takes, if it is a sign: itself and the operand behind it. -/
def tableSignSpan? (tokens : List Token) (i : Nat) : Option Span :=
  if (0 < i → tokens[i - 1]?.any allowsSign = true) ∧ tokens[i]? = some (.operator .sub) then
    (operandEnd? tokens (i + 1)).map fun stop => ⟨i, stop⟩
  else
    none

/-- The spans of a pass are those that its tokens take at their positions. -/
theorem Pass.spans_eq_filterMap {p : Pass} {tokens : List Token} {span? : Nat → Option Span}
    (same
      : ∀ front t back, tokens = front ++ t :: back
        → p.span? front.reverse t back = span? front.length)
    : p.spans tokens = (List.range tokens.length).filterMap span? := by
  have along : along p.span? [] tokens [] = (List.range tokens.length).map span? := by
    refine List.ext_getElem? fun i => ?_
    by_cases lt : i < tokens.length
    · obtain ⟨front, t, back, rfl, rfl⟩ := exists_append_of_lt lt
      rw [getElem?_along, same front t back rfl]
      simp
    · rw [List.getElem?_eq_none (by simpa using lt), List.getElem?_eq_none (by simpa using lt)]
  rw [Pass.spans, Pass.spansIn, along, List.reduceOption, List.filterMap_map]
  rfl

/-- The pass for powers puts its brackets where the tables say. -/
theorem powerPass_spans (tokens : List Token)
    : powerPass.spans tokens = (List.range tokens.length).filterMap (tablePowerSpan? tokens) := by
  refine Pass.spans_eq_filterMap fun front t back parts => ?_
  subst parts
  have here : (front ++ t :: back)[front.length]? = some t := by simp
  by_cases power : t = .operator .pow
  · subst power
    cases front using List.reverseRecOn with
    | nil => rfl
    | append_singleton front last =>
        have start := operandStart?_append front last (.operator .pow :: back)
        have stop := chainEnd?_append (front ++ [last]) back
        rw [List.append_assoc, List.singleton_append, List.length_append, List.length_singleton]
          at stop
        simp only [tablePowerSpan?, List.append_assoc, List.singleton_append, List.length_append,
          List.length_singleton, Nat.add_sub_cancel, start, stop]
        simp [powerPass, powerSpan?, Option.bind_map, Function.comp_def]
  · simp [powerPass, tablePowerSpan?, power]

/-- So does the pass for signs. -/
theorem signPass_spans (tokens : List Token)
    : signPass.spans tokens = (List.range tokens.length).filterMap (tableSignSpan? tokens) := by
  refine Pass.spans_eq_filterMap fun front t back parts => ?_
  subst parts
  have here : (front ++ t :: back)[front.length]? = some t := by simp
  have signs : mayHoldSign front.reverse = true
      ↔ (0 < front.length → (front ++ t :: back)[front.length - 1]?.any allowsSign = true) := by
    cases front using List.reverseRecOn with
    | nil => simp [mayHoldSign]
    | append_singleton front last => simp [mayHoldSign]
  simp only [tableSignSpan?, operandEnd?_append_cons, here, ← signs]
  simp [signPass, minusSpan?, Function.comp_def]

--------------------------------------------------------------------------------
-- Tables and scans
--------------------------------------------------------------------------------

/-- The tables over a token list agree with counting the depth of its brackets and with scanning its
operands.
-/
structure TablesAgree (tokens : List Token) : Prop where
  /-- The run from left to right makes pairs of partners. -/
  matched : pairs tokens = (List.range tokens.length).map (partner? tokens)
  /-- The partner of a bracket that opens is the first position behind it at which the depth counted
  from there is zero, if there is one.
  -/
  opening
    : ∀ i, tokens[i]? = some .openBracket
      → (∀ j, partner? tokens i = some j ↔ IsLeast (returnsBehind tokens i) j)
        ∧ (partner? tokens i = none ↔ returnsBehind tokens i = ∅)
  /-- The partner of a bracket that closes is found likewise to the left of it. -/
  closing
    : ∀ i, tokens[i]? = some .closeBracket
      → (∀ j, partner? tokens i = some j ↔ IsGreatest (returnsBefore tokens i) j)
        ∧ (partner? tokens i = none ↔ returnsBefore tokens i = ∅)
  /-- No other token has a partner. -/
  brackets
    : ∀ i j, partner? tokens i = some j
      → tokens[i]? = some .openBracket ∨ tokens[i]? = some .closeBracket
  involutive : ∀ i j, partner? tokens i = some j → partner? tokens j = some i
  /-- No two pairs cross. -/
  noncrossing
    : ∀ i j k l, partner? tokens i = some j → partner? tokens k = some l
      → i < k → k < j → i < l ∧ l < j
  /-- The table of signs gives the first position at or behind another that holds no sign. The end
  of the list is one.
  -/
  signs
    : ∀ k ≤ tokens.length,
        ∃ n, (unsigned tokens)[k]? = some n
          ∧ IsLeast {n | k ≤ n ∧ tokens[n]?.any Token.isSign = false} n
  /-- An operand ends where scanning it ends. -/
  ends : ∀ start, operandEnd? tokens start = scannedEnd? tokens start
  bounds : ∀ start stop, operandEnd? tokens start = some stop → start < stop ∧ stop ≤ tokens.length
  /-- An operand begins where scanning it to the left ends. -/
  starts : ∀ last < tokens.length, operandStart? tokens last = scannedStart? tokens last
  /-- The chain behind a power sign ends where scanning it ends. -/
  chains
    : ∀ i, tokens[i]? = some (.operator .pow)
      → ∀ result, chainEnd? tokens i = result ↔ ScannedChain tokens i result
  /-- The brackets around powers go from the beginning of an operand to the end of a chain. -/
  powers
    : powersGrouped tokens
      = bracketed ((List.range tokens.length).filterMap (tablePowerSpan? tokens)) 0
        (tokens.map ([·]))
  /-- The brackets around a minus that is a sign go to the end of its operand. -/
  minuses
    : signsRewritten tokens
      = bracketed ((List.range tokens.length).filterMap (tableSignSpan? tokens)) 0
        (signPass.images tokens)

/-- Whatever the tokens are, balanced or not, the tables that are filled once give what counting and
scanning would find again for every bracket, operand and power sign, and the brackets of the later
passes stand where the tables say. Witness: the layout of the tokens gives the brackets around
balanced tokens as partners, and behind some tokens a table is the one of the other tokens.
-/
theorem tables_agree (tokens : List Token)
    : TablesAgree tokens where
  matched := pairs_eq tokens
  opening i opens := partner?_openBracket opens
  closing i closes := partner?_closeBracket closes
  brackets i j := bracket_of_partner?
  involutive i j := partner?_symm
  noncrossing i j k l := partner?_between
  signs k := exists_unsigned
  ends := operandEnd?_eq_scannedEnd? tokens
  bounds start stop found := scannedEnd?_bounds (operandEnd?_eq_scannedEnd? tokens start ▸ found)
  starts last := operandStart?_eq_scannedStart?
  chains i power result := chainEnd?_eq_iff power
  powers := by
    rw [← powerPass_spans, ← images_powerPass]
    exact (PowerReading.rewrites_powersGrouped tokens).output.symm
  minuses := by
    rw [← signPass_spans]
    exact (SignReading.rewrites_signsRewritten tokens).output.symm

/-- The first chain ends in front of the product. The other one lacks its last operand, so that
neither of its power signs has an end.
-/
example
    : (List.range 9).map
        (chainEnd? [.constant .pi, .operator .pow, .operator .sub, .constant .e, .operator .mul,
          .constant .pi, .operator .pow, .constant .e, .operator .pow])
      = [none, some 4, none, none, none, none, none, none, none] := by
  decide

end Calculator.Infix
