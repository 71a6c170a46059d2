import Mathlib.Data.List.TakeWhile
import Calculator.Proofs.Session
import Calculator.Repl

/-! What a dialogue writes. Its lines are answered one after the other, up to the one that ends it,
and each of them finds the state that the lines before it have left.
-/

namespace Calculator.Repl

/-- The lines of an input. A line break ends a line, and nothing follows the last one. -/
def lines (input : List Char) : List (List Char) :=
  let pieces := input.splitOn '\n'
  if pieces.getLast? = some [] then pieces.dropLast else pieces

/-- Whether a line is the word that ends a dialogue, in any case of its letters. -/
def isExit (line : List Char) : Bool :=
  line.map Char.toLower == "exit".toList

/-- The lines of an input without the white space around them, up to the one that ends the
dialogue.
-/
def answeredLines (input : List Char) : List (List Char) :=
  ((lines input).map Text.trim).takeWhile (!isExit ·)

/-- The output and the state behind one more line. Neither a blank line nor a line that fails
changes the state.
-/
def turn (before : String × State) (line : List Char) : String × State :=
  if line = [] then
    (before.1 ++ "> ", before.2)
  else
    let outcome := solve (.ofList line) before.2
    match outcome.result with
    | .ok x => (before.1 ++ "> " ++ "  " ++ Numeral.ofFloat x ++ "\n", outcome.state)
    | .error e => (before.1 ++ "> " ++ "  " ++ e.message ++ "\n", before.2)

--------------------------------------------------------------------------------
-- Lines
--------------------------------------------------------------------------------

@[simp]
theorem lines_nil
    : lines [] = [] :=
  rfl

theorem lines_of_not_mem {line : List Char} (unbroken : '\n' ∉ line) (nonempty : line ≠ [])
    : lines line = [line] := by
  rw [lines, List.splitOn_eq_singleton unbroken]
  simp [nonempty]

/-- A line break ends the first line. -/
theorem lines_append {line : List Char} (unbroken : '\n' ∉ line) (rest : List Char)
    : lines (line ++ '\n' :: rest) = line :: lines rest := by
  have pieces : (line ++ '\n' :: rest).splitOn '\n' = line :: rest.splitOn '\n' :=
    List.splitOn_append_cons_self_of_not_mem unbroken rest
  obtain ⟨first, later, found⟩ := List.exists_cons_of_ne_nil (List.splitOn_ne_nil '\n' rest)
  rw [lines, lines, pieces, found, List.getLast?_cons_cons, List.dropLast_cons_cons]
  split <;> rfl

/-- The white space around a line includes its line break. -/
theorem trim_append_lineBreak (line : List Char)
    : Text.trim (line ++ ['\n']) = Text.trim line := by
  have blank : Text.isWhiteSpace '\n' = true := rfl
  unfold Text.trim
  rw [List.dropWhile_append]
  split
  · rename_i none
    rw [List.isEmpty_iff] at none
    rw [none, List.dropWhile_cons_of_pos blank, List.dropWhile_nil]
  · rw [List.reverse_append, List.reverse_singleton, List.singleton_append,
      List.dropWhile_cons_of_pos blank]

/-- A line that is read is the first of the lines. -/
theorem readLine_cases (input : List Char)
    : (input = [] ∧ readLine input = ([], []))
      ∨ ∃ line, (readLine input).1 ≠ [] ∧ Text.trim (readLine input).1 = Text.trim line
          ∧ lines input = line :: lines (readLine input).2 := by
  have parts := List.takeWhile_append_dropWhile (p := (· != '\n')) (l := input)
  have unbroken : '\n' ∉ input.takeWhile (· != '\n') := by
    intro member
    simpa using List.mem_takeWhile_imp member
  unfold readLine
  split
  · rename_i last
    rw [last, List.append_nil] at parts
    by_cases empty : input = []
    · exact .inl ⟨empty, by rw [empty]; rfl⟩
    · rw [parts] at unbroken ⊢
      exact .inr ⟨input, empty, rfl, lines_of_not_mem unbroken empty⟩
  · rename_i lineBreak rest found
    obtain rfl : lineBreak = '\n' := by
      have stop := List.head?_dropWhile_not (· != '\n') input
      simpa [found] using stop
    rw [found] at parts
    refine .inr ⟨input.takeWhile (· != '\n'), by simp, trim_append_lineBreak _, ?_⟩
    conv_lhs => rw [← parts]
    exact lines_append unbroken rest

--------------------------------------------------------------------------------
-- Turns
--------------------------------------------------------------------------------

/-- What a turn writes does not depend on what is written before. -/
theorem turn_append (written output : String) (s : State) (line : List Char)
    : turn (written ++ output, s) line
      = (written ++ (turn (output, s) line).1, (turn (output, s) line).2) := by
  unfold turn
  split
  · rw [String.append_assoc]
  · dsimp only
    cases (solve (.ofList line) s).result <;> simp only [String.append_assoc]

/-- So it is for several turns. -/
theorem foldl_turn_append (written output : String) (s : State) (texts : List (List Char))
    : texts.foldl turn (written ++ output, s)
      = (written ++ (texts.foldl turn (output, s)).1, (texts.foldl turn (output, s)).2) := by
  induction texts generalizing output s with
  | nil => rfl
  | cons text rest ih =>
      rw [List.foldl_cons, List.foldl_cons, turn_append, ih]

/-- A line that does not end the dialogue is replied to as its turn says. -/
theorem reply?_cases (s : State) (line : List Char)
    : (isExit (Text.trim line) = true ∧ reply? s line = none)
      ∨ isExit (Text.trim line) = false
        ∧ ∃ text next, reply? s line = some (text, next)
          ∧ turn ("", s) (Text.trim line) = ("> " ++ text, next) := by
  unfold reply? Command.ofLine turn
  by_cases blank : Text.trim line = []
  · right
    simp only [blank, List.isEmpty_nil, if_true]
    exact ⟨rfl, _, _, rfl, rfl⟩
  · simp only [List.isEmpty_iff, blank, if_false]
    by_cases exit : (Text.trim line).map Char.toLower = "exit".toList
    · exact .inl ⟨beq_iff_eq.mpr exit, by rw [if_pos exit]⟩
    · right
      rw [if_neg exit]
      refine ⟨beq_eq_false_iff_ne.mpr exit, _, _, rfl, ?_⟩
      have state := solve_state (.ofList (Text.trim line)) s
      unfold answer
      cases result : (solve (.ofList (Text.trim line)) s).result with
      | ok x => simp only [String.append_assoc, String.empty_append]
      | error e =>
          rw [result] at state
          simp only [String.append_assoc, String.empty_append, state, State.behind]

/-- A dialogue writes what its turns write, and a last prompt. Witness: induction on the input that
is still to be read.
-/
theorem dialogue_eq_foldl (s : State) (input : List Char)
    : dialogue s input = ((answeredLines input).foldl turn ("", s)).1 ++ "> " := by
  fun_induction dialogue s input with
  | case1 s input last =>
      rcases readLine_cases input with ⟨rfl, _⟩ | ⟨_, more, _⟩
      · rfl
      · exact absurd last more
  | case2 s input more left =>
      rcases readLine_cases input with ⟨_, last⟩ | ⟨line, _, trimmed, found⟩
      · exact absurd (by rw [last]) more
      · rcases reply?_cases s (readLine input).1 with ⟨exit, _⟩ | ⟨_, _, _, replied, _⟩
        · rw [trimmed] at exit
          rw [answeredLines, found, List.map_cons, List.takeWhile_cons_of_neg (by simp [exit])]
          rfl
        · rw [left] at replied
          cases replied
  | case3 s input more text next replied ih =>
      rcases readLine_cases input with ⟨_, last⟩ | ⟨line, _, trimmed, found⟩
      · exact absurd (by rw [last]) more
      · rcases reply?_cases s (readLine input).1 with ⟨_, left⟩ | ⟨stays, _, _, same, turned⟩
        · rw [left] at replied
          cases replied
        · rw [replied] at same
          cases same
          rw [trimmed] at stays turned
          rw [answeredLines, found, List.map_cons, List.takeWhile_cons_of_pos (by simp [stays]),
            List.foldl_cons, turned, ← String.append_empty (s := "> " ++ text),
            foldl_turn_append, ih, answeredLines]
          simp only [String.append_assoc, prompt]

--------------------------------------------------------------------------------
-- Options and the exit line
--------------------------------------------------------------------------------

/-- Whether an option asks for degrees. -/
def asksForDegrees (option : String) : Bool :=
  option == "-d" || option == "--degree"

/-- The first option that does not ask for degrees prevents a dialogue. -/
theorem ofOptions_eq (mode : AngleMode) (options : List String)
    : Startup.ofOptions mode options
      = match options.find? (!asksForDegrees ·) with
        | none => .dialogue (if options = [] then mode else .degree)
        | some option =>
            if option = "-h" ∨ option = "--help" then .help else .unknown option := by
  induction options generalizing mode with
  | nil => rfl
  | cons option rest ih =>
      unfold Startup.ofOptions
      by_cases degrees : option = "-d" ∨ option = "--degree"
      · have asks : asksForDegrees option = true := by simpa [asksForDegrees] using degrees
        rw [if_pos degrees, ih, List.find?_cons_of_neg (by simp [asks])]
        cases rest.find? (!asksForDegrees ·) <;> simp
      · have other : asksForDegrees option = false := by simpa [asksForDegrees] using degrees
        rw [if_neg degrees, List.find?_cons_of_pos (by simp [other])]

/-- Whether a text ends where a line does. -/
def EndsLine (text : List Char) : Prop :=
  text = [] ∨ text.getLast? = some '\n'

/-- An input that is cut between two lines. Witness: induction on the lines in front of the cut. -/
theorem lines_append_of_endsLine {front : List Char} (ends : EndsLine front) (rest : List Char)
    : lines (front ++ rest) = lines front ++ lines rest := by
  induction h : front.length using Nat.strong_induction_on generalizing front with
  | _ length ih =>
      rcases ends with rfl | ends
      · rfl
      · obtain ⟨line, later, rfl, unbroken⟩ :=
          List.eq_append_cons_of_mem (List.mem_of_getLast? ends)
        have later_ends : EndsLine later := by
          cases later with
          | nil => exact .inl rfl
          | cons c later =>
              right
              rwa [List.getLast?_append_of_ne_nil _ (by simp), List.getLast?_cons_cons] at ends
        have shorter : later.length < length := by
          rw [← h, List.length_append, List.length_cons]
          omega
        rw [List.append_assoc, List.cons_append, lines_append unbroken, lines_append unbroken,
          ih later.length shorter later_ends rfl, List.cons_append]

/-- Nothing behind the exit line is answered. -/
theorem answeredLines_of_exit {front line : List Char} (ends : EndsLine front)
    (unbroken : '\n' ∉ line) (exit : isExit (Text.trim line) = true) (after : List Char)
    : answeredLines (front ++ (line ++ '\n' :: after)) = answeredLines front := by
  rw [answeredLines, answeredLines, lines_append_of_endsLine ends, lines_append unbroken,
    List.map_append, List.map_cons, List.takeWhile_append,
    List.takeWhile_cons_of_neg (by simp [exit])]
  split
  · rename_i all
    rw [List.append_nil, (List.takeWhile_prefix _).eq_of_length all]
  · rfl

--------------------------------------------------------------------------------
-- Transcripts
--------------------------------------------------------------------------------

/-- The transcript for some options and the lines that are to be answered. An option that does not
ask for degrees decides alone what is written. Otherwise each line has its turn, in the state that
the turns before it have left.
-/
def Transcript.ofTurns (options : List String) (texts : List (List Char)) : Transcript :=
  match options.find? (!asksForDegrees ·) with
  | some option =>
      {
        output :=
          "Usage: infix-calc [-d | --degree]\nEnter a math expression or 'exit' to exit.\n",
        errors :=
          if option = "-h" ∨ option = "--help" then "" else "Unknown option '" ++ option ++ "'\n"
      }
  | none =>
      let start : State := { mode := if options = [] then .radian else .degree }
      {
        output :=
          "Enter a math expression or 'exit' to exit.\n"
            ++ (texts.foldl turn ("", start)).1 ++ "> ",
        errors := ""
      }

/-- A transcript takes the turns of the lines up to the exit line. Witness: one case for each
outcome of the options.
-/
theorem transcript_eq_ofTurns (options : List String) (input : String)
    : transcript options input = .ofTurns options (answeredLines input.toList) := by
  rw [transcript, ofOptions_eq, Transcript.ofTurns]
  cases options.find? (!asksForDegrees ·) with
  | none => simp only [greeting, dialogue_eq_foldl, String.append_assoc]
  | some option =>
      have text
          : usage
            = "Usage: infix-calc [-d | --degree]\nEnter a math expression or 'exit' to exit.\n" :=
        rfl
      by_cases help : option = "-h" ∨ option = "--help"
      · simp only [if_pos help]
        exact congrArg (Transcript.mk · "") text
      · simp only [if_neg help]
        exact congrArg (Transcript.mk · (unknownOption option)) text

/-- A transcript is a fold over the lines of the input, up to the exit line. What stands behind the
exit line has no influence.
-/
theorem transcript_is_fold (options : List String) (input : String)
    : transcript options input = .ofTurns options (answeredLines input.toList)
      ∧ ∀ front line after, input.toList = front ++ (line ++ '\n' :: after) → EndsLine front
        → '\n' ∉ line → isExit (Text.trim line) = true
        → ∀ other, transcript options (.ofList (front ++ (line ++ '\n' :: other)))
          = transcript options input := by
  refine ⟨transcript_eq_ofTurns options input, ?_⟩
  intro front line after whole ends unbroken exit other
  rw [transcript_eq_ofTurns, transcript_eq_ofTurns, whole, String.toList_ofList,
    answeredLines_of_exit ends unbroken exit, answeredLines_of_exit ends unbroken exit]

/-- Witness: between an answer and one that adds the angle mode to it, there are a line of white
space and one that fails. The exit line is in mixed case and between blanks. An option that does not
exist decides alone what is written.
-/
theorem transcript_is_fold_exit
    : let front := "2+3\n \u00a0\n1/0\nans+mode\n"
      let input := front ++ " eXit \nans"
      EndsLine front.toList ∧ isExit (Text.trim " eXit ".toList) = true
        ∧ answeredLines input.toList = ["2+3".toList, [], "1/0".toList, "ans+mode".toList]
        ∧ transcript ["-d"] input
          = {
            output :=
              "Enter a math expression or 'exit' to exit.\n" ++ ">   5.0\n" ++ "> "
                ++ ">   Syntax Error: '1' divided by zero\n" ++ ">   6.0\n" ++ "> ",
            errors := ""
          }
        ∧ transcript ["-d"] (front ++ " eXit \n1/0") = transcript ["-d"] input
        ∧ transcript ["-d", "-x", "-h"] input
          = {
            output :=
              "Usage: infix-calc [-d | --degree]\nEnter a math expression or 'exit' to exit.\n",
            errors := "Unknown option '-x'\n"
          } := by
  intro front input
  have texts
      : answeredLines input.toList = ["2+3".toList, [], "1/0".toList, "ans+mode".toList] := by
    decide +kernel
  have ends : EndsLine front.toList := .inr (by decide +kernel)
  have exit : isExit (Text.trim " eXit ".toList) = true := by decide +kernel
  have whole : input.toList = front.toList ++ (" eXit ".toList ++ '\n' :: "ans".toList) := by
    decide +kernel
  have other
      : String.ofList (front.toList ++ (" eXit ".toList ++ '\n' :: "1/0".toList))
        = front ++ " eXit \n1/0" := by
    decide +kernel
  obtain ⟨turns, rest⟩ := transcript_is_fold ["-d"] input
  have same := rest front.toList " eXit ".toList "ans".toList whole ends (by decide +kernel) exit
    "1/0".toList
  rw [other] at same
  refine ⟨ends, exit, texts, ?_, same, ?_⟩
  · rw [turns, texts]
    decide +kernel
  · rw [(transcript_is_fold ["-d", "-x", "-h"] input).1]
    decide +kernel

end Calculator.Repl
