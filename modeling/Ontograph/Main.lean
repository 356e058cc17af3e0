import Ontograph.Command.Run

/-!
# The program

Reads the files that the command needs, and standard input if it is read, and writes the outcome.
-/

open Ontograph

/-- The content of the files among `paths` that can be read. -/
def readFiles (paths : List String) : IO (List (String × String)) := do
  let mut contents := []
  for path in paths do
    match ← (IO.FS.readFile path).toBaseIO with
    | .ok text => contents := (path, text) :: contents
    | .error _ => pure ()
  return contents

def main (args : List String) : IO UInt32 := do
  let invocation := Invocation.ofArguments? args
  let (files, stdin) ← match invocation with
    | some (.command command) => do
        let files ← readFiles command.files
        let stdin ← if command.readsStdin then (← IO.getStdin).readToEnd else pure ""
        pure (files, stdin)
    | _ => pure ([], "")
  let outcome := Invocation.run ⟨fun path => files.lookup path, stdin⟩ invocation
  (← IO.getStdout).putStr outcome.output
  (← IO.getStderr).putStr outcome.errors
  return outcome.exitCode
