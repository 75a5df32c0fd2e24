import SchemaPlan.CommandLine.Outcome

/-!
# The program

Reads the arguments, the environment and files, and prints the outcome.
-/

namespace SchemaPlan.CommandLine

/-- Reads a file of the file system. -/
def readFile (path : String) : IO Reading := do
  try
    return .content (← IO.FS.readFile path)
  catch
    | .noFileOrDirectory .. => return .missing
    | _ => return .unreadable

/-- The environment of the process. -/
def readEnvironment : IO Environment := do
  return ⟨← IO.getEnv Environment.endpointVariable, ← IO.getEnv Environment.databaseVariable⟩

end SchemaPlan.CommandLine

open SchemaPlan.CommandLine in
/-- Runs the program. -/
def main (arguments : List String) : IO UInt32 := do
  let outcome ← run (← readEnvironment) readFile arguments
  IO.print outcome.output
  unless outcome.complaint.isEmpty do IO.eprintln outcome.complaint
  return .ofNat outcome.code
