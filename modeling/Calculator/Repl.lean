import Calculator.Solve
import Calculator.Text.Trim

/-! The dialogue: a line of input is answered with a line of output, and the next one finds
the state that it left. The texts are computed here, so that the outer layer only reads
and prints.
-/

namespace Calculator.Repl

/-- The first line of a dialogue. -/
def greeting : String :=
  "Enter a math expression or 'exit' to exit.\n"

/-- The help text. -/
def usage : String :=
  "Usage: infix-calc [-d | --degree]\n" ++ greeting

/-- What stands in front of each line of input. -/
def prompt : String :=
  "> "

--------------------------------------------------------------------------------
-- Options
--------------------------------------------------------------------------------

/-- What the options ask for. -/
inductive Startup where
  /-- A dialogue that begins in an angle mode. -/
  | dialogue (mode : AngleMode)
  /-- The help text. -/
  | help
  /-- The help text, because of an option that does not exist. -/
  | unknown (option : String)
deriving DecidableEq

/-- Reads options from left to right, up to the first one that prevents a dialogue. -/
def Startup.ofOptions (mode : AngleMode) : List String → Startup
  | [] => .dialogue mode
  | option :: rest =>
      if option = "-d" ∨ option = "--degree" then
        ofOptions .degree rest
      else if option = "-h" ∨ option = "--help" then
        .help
      else
        .unknown option

/-- The complaint about an option that does not exist. -/
def unknownOption (option : String) : String :=
  "Unknown option '" ++ option ++ "'\n"

--------------------------------------------------------------------------------
-- Lines
--------------------------------------------------------------------------------

/-- What a line of input asks for. -/
inductive Command where
  | blank
  | leave
  | solve (text : String)
deriving DecidableEq

/-- White space around a line does not count. The word that ends a dialogue may be written
in any case.
-/
def Command.ofLine (line : List Char) : Command :=
  let text := Text.trim line
  if text.isEmpty then
    .blank
  else if text.map Char.toLower = "exit".toList then
    .leave
  else
    .solve (.ofList text)

/-- The line of output for an outcome. -/
def answer (o : Outcome) : String :=
  "  " ++ (match o.result with
    | .ok x => Numeral.ofFloat x
    | .error e => e.message) ++ "\n"

/-- What is written in reply to a line, and the state behind it, unless the line ends the
dialogue.
-/
def reply? (s : State) (line : List Char) : Option (String × State) :=
  match Command.ofLine line with
  | .blank => some ("", s)
  | .leave => none
  | .solve text =>
      let outcome := Calculator.solve text s
      some (answer outcome, outcome.state)

--------------------------------------------------------------------------------
-- Dialogues
--------------------------------------------------------------------------------

/-- The next line of an input, up to and including its line break, and the input behind it. The
line is empty at the end of the input only.
-/
def readLine (input : List Char) : List Char × List Char :=
  match input.dropWhile (· != '\n') with
  | [] => (input.takeWhile (· != '\n'), [])
  | lineBreak :: rest => (input.takeWhile (· != '\n') ++ [lineBreak], rest)

/-- Nothing is lost between a line and the input behind it. -/
theorem readLine_append (input : List Char)
    : (readLine input).1 ++ (readLine input).2 = input := by
  have parts := List.takeWhile_append_dropWhile (p := (· != '\n')) (l := input)
  unfold readLine
  split
  · rename_i last
    rwa [last] at parts
  · rename_i found
    rwa [found, List.append_cons] at parts

/-- The output from a prompt on. -/
def dialogue (s : State) (input : List Char) : String :=
  if (readLine input).1 = [] then
    prompt
  else
    match reply? s (readLine input).1 with
    | none => prompt
    | some (text, next) => prompt ++ text ++ dialogue next (readLine input).2
termination_by input.length
decreasing_by
  have whole := congrArg List.length (readLine_append input)
  have nonempty := List.length_pos_iff.mpr ‹_›
  rw [List.length_append] at whole
  omega

/-- What a whole dialogue writes. -/
structure Transcript where
  output : String
  errors : String
deriving DecidableEq

/-- The texts written for some options and a whole input. -/
def transcript (options : List String) (input : String) : Transcript :=
  match Startup.ofOptions .radian options with
  | .dialogue mode =>
      { output := greeting ++ dialogue { mode } input.toList, errors := "" }
  | .help => { output := usage, errors := "" }
  | .unknown option => { output := usage, errors := unknownOption option }

end Calculator.Repl
