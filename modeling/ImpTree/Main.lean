import ImpTree.CommandLine

/-!
# The program

Reads the file that the command line names, prints the response and ends with its exit status.
-/

open ImpTree

/-- The text of a file, or the reason for which it cannot be read. -/
def fileContent (file : String) : IO (Except String String) := do
  try
    return .ok (← IO.FS.readFile file)
  catch
    | .noFileOrDirectory .. => return .error noSuchFile
    | .inappropriateType .. => return .error isADirectory
    | e => return .error (toString e)

/-- Responds to the arguments; without a command, says how to give one. -/
def main (arguments : List String) : IO UInt32 := do
  match Command.parse? arguments with
  | none =>
    IO.eprintln "usage: check FILE | run FILE [--json]"
    return 2
  | some command =>
    let response := command.respond (← fileContent command.file)
    IO.print response.stdout
    IO.eprint response.stderr
    return response.exit.toUInt32
