import Calculator.Repl

/-! The program: it reads lines from standard input and prints the answers. -/

open Calculator Calculator.Repl

/-- Answers lines until the input or the dialogue ends. -/
partial def answerLines (input output : IO.FS.Stream) (s : State) : IO Unit := do
  output.putStr prompt
  output.flush
  let line ← input.getLine
  if line.isEmpty then
    return
  match reply? s line.toList with
  | none => return
  | some (text, next) =>
      output.putStr text
      answerLines input output next

/-- Starts a dialogue, or shows how to start one. -/
def main (options : List String) : IO UInt32 := do
  let output ← IO.getStdout
  match Startup.ofOptions .radian options with
  | .dialogue mode =>
      output.putStr greeting
      answerLines (← IO.getStdin) output { mode }
  | .help => output.putStr usage
  | .unknown option =>
      (← IO.getStderr).putStr (unknownOption option)
      output.putStr usage
  return 0
