import Calculator.Solve

/-! Programs that work with several states. Each state has a number, and it is a value of its own:
what is done to a copy leaves the original alone.
-/

namespace Calculator

/-- What can be done to a state. -/
inductive Command where
  | create (mode : AngleMode)
  | copy (source : Nat)
  | solve (text : String)
  | setMode (mode : AngleMode)
  | toggleMode
  | reset

/-- The state that a command leaves in place of `s`, among the other states. -/
def Command.apply (states : Nat → State) (s : State) : Command → State
  | create mode => { mode }
  | copy source => states source
  | solve text => (Calculator.solve text s).state
  | setMode mode => s.setMode mode
  | toggleMode => s.toggleMode
  | reset => s.reset

/-- A command for the state with the number `target`. -/
structure Instruction where
  target : Nat
  command : Command

/-- The states after an instruction. -/
def Instruction.execute (states : Nat → State) (i : Instruction) : Nat → State :=
  fun k => if k = i.target then i.command.apply states (states k) else states k

/-- The states after a whole program, which begins with new states. -/
def statesBehind (program : List Instruction) : Nat → State :=
  program.foldl Instruction.execute fun _ => {}

end Calculator
