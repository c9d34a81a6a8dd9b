import Formulary.Command.Program

/-!
# Running the program

The program on a real disk: reports and failures go to the standard error, the output
of a command to the standard output.
-/

namespace Formulary

/-- The result of an action, or none if it fails. -/
def attempt {α : Type} (action : IO α) : IO (Option α) :=
  try
    return some (← action)
  catch _ => return none

/-- The world of the process. -/
def processWorld : World IO where
  read := fun path => attempt (IO.FS.readFile path)
  isThere := fun path => return (← attempt (IO.FS.realPath path)).isSome
  write := fun path content => return (← attempt (IO.FS.writeFile path content)).isSome
  directory := return ((← attempt IO.currentDir).map toString).getD "."
  environment? := fun name => IO.getEnv name
  report := fun r => IO.eprintln ("[" ++ r.level.label ++ "] " ++ r.message)

/-- Prints an outcome. -/
def Outcome.print (o : Outcome) : IO Unit := do
  IO.print o.output
  match o.failure with
  | some e => IO.eprintln ("Error: " ++ e.message)
  | none => pure ()

end Formulary

/-- Carries out the command line of the process. -/
def main (arguments : List String) : IO UInt32 := do
  let outcome ← Formulary.Program.run Formulary.processWorld arguments
  outcome.print
  return outcome.exitCode.toUInt32
