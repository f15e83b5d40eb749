import ImpTree.Feedback.Json
import ImpTree.Session
import ImpTree.Tree.Decode

/-!
# The command line

`check FILE` checks the program in a file, `run FILE` checks and runs it.  With `--json`, anywhere
on the line, the outcome is reported as a JSON document.

* `Command.parse?` — the meaning of the arguments.
* `Command.respond` — what is written to the two outputs, and the exit status.
-/

namespace ImpTree

/-- What the arguments ask for. -/
structure Command where
  /-- Is the program to be run, too? -/
  isRun : Bool
  /-- The name of the file. -/
  file : String
  /-- Is the outcome to be reported as a document? -/
  json : Bool
  deriving DecidableEq, Inhabited

/-- What a command leaves behind. -/
structure Response where
  /-- The exit status. -/
  exit : UInt8
  /-- The text for standard output. -/
  stdout : String
  /-- The text for standard error. -/
  stderr : String
  deriving DecidableEq, Inhabited

namespace Command

/-- The meaning of arguments, if they have one. -/
def parse? (arguments : List String) : Option Command :=
  let json := arguments.contains "--json"
  match arguments.filter (· != "--json") with
  | ["check", file] => some ⟨false, file, json⟩
  | ["run", file] => some ⟨true, file, json⟩
  | _ => none

/-- The text that leads every message about a file that cannot be used. -/
def troubleText (activity file : String) : String := s!"Error: {activity} {file}: "

/-- How an error is reported to a reader. -/
def errorLine (e : Error) : String :=
  let place := match e.span? with
    | some span => s!" at {span.text}"
    | none => ""
  s!"{e.phase.text} error[{e.code}]{place}: {e.message}\n"

/-- The low eight bits of an exit status. -/
def exitByte (code : Int32) : UInt8 := code.toUInt32.toUInt8

/-- What is said at the end of a check or run that went well. -/
def successText (c : Command) (exitCode : Option Int32) : String :=
  if c.json then (Feedback.ofExit c.file exitCode).text ++ "\n"
  else if c.isRun then ""
  else "No errors found\n"

/-- The response to an error, after some output. -/
def failed (c : Command) (output : String) (e : Error) : Response :=
  if c.json then ⟨1, output ++ (Feedback.failure c.file e).text ++ "\n", ""⟩
  else ⟨1, output, errorLine e⟩

/-- The response for a program that was read. -/
def respondTo (c : Command) (p : Program) : Response :=
  if c.isRun then
    match p.checkThenRun .builtin .unbounded with
    | some result =>
      match result.verdict with
      | .ok value =>
        ⟨exitByte value.exitCode, result.output ++ c.successText (some value.exitCode), ""⟩
      | .error e => c.failed result.output e
    | none => default
  else
    match (p.analyze .builtin).verdict with
    | .ok _ => ⟨0, c.successText none, ""⟩
    | .error e => c.failed "" e

/-- The response to a command, given the text of its file or the reason for which it cannot be
read. -/
def respond (c : Command) (content : Except String String) : Response :=
  match content with
  | .error reason => ⟨1, "", troubleText "reading" c.file ++ reason ++ "\n"⟩
  | .ok text =>
    match Program.parse? text with
    | none => ⟨1, "", troubleText "parsing syntax tree in" c.file⟩
    | some p => c.respondTo p

end Command

/-- The reason for which a file that is not there cannot be read. -/
def noSuchFile : String := "No such file or directory (os error 2)"

/-- The reason for which a directory cannot be read. -/
def isADirectory : String := "Is a directory (os error 21)"

end ImpTree
