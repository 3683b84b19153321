import Dbml.CommandLine

/-!
# The program
-/

open Dbml CommandLine

def systemText : IO.Error → String
  | .noFileOrDirectory .. => missingFile
  | .permissionDenied _ code details | .inappropriateType _ code details =>
    s!"{details} (os error {code})"
  | error => toString error

/-- Writes the file of a plan, and gives the reason when that fails. -/
def carryOut : Action → IO (Option String)
  | .write path text => do
    try
      IO.FS.writeFile path text
      return none
    catch error => return some (systemText error)
  | _ => return none

/-- Reads the file that the arguments name and writes what it declares. -/
def main (args : List String) : IO UInt32 := do
  let some invocation := Invocation.ofArguments? args
    | (← IO.getStderr).putStrLn usage
      return 2
  let input ←
    try
      let bytes ← IO.FS.readBinFile invocation.input
      pure (textOf bytes)
    catch error => pure (.error (systemText error))
  let plan := plan invocation input
  let outcome := plan.outcome (← carryOut plan.action)
  (← IO.getStderr).putStr outcome.messages
  (← IO.getStdout).putStr outcome.output
  return outcome.exitCode
