import ImpTree.Binary64
import ImpTree.Error
import ImpTree.Ty

/-!
# Feedback

What a check or a run has to say to other programs: whether it succeeded and, if not, what went
wrong, where, and what might help.

* `Suggestion`, `Report`, `Feedback` — the parts of an answer.
* `Error.suggestions` — what might help against an error.
* `Report.sorted` — the same report with the most confident suggestions first.
* `Report.ofError`, `Feedback.ofExit`, `Feedback.failure` — the answers themselves.
-/

namespace ImpTree

/-! ## The parts of an answer -/

/-- How serious a report is. -/
inductive Severity where
  /-- The program cannot go on. -/
  | error
  deriving DecidableEq, Inhabited

/-- A piece of advice, with a number that says how likely it is to help. -/
structure Suggestion where
  /-- The advice. -/
  message : String
  /-- How likely it is to help, between 0 and 1. -/
  confidence : Binary64
  deriving DecidableEq, Inhabited

/-- A place in a file. -/
structure Location where
  /-- The name of the file. -/
  file : String
  /-- The offset of the first byte. -/
  start : UInt64
  /-- The offset after the last byte. -/
  stop : UInt64
  deriving DecidableEq, Inhabited

/-- What is reported of one error. -/
structure Report where
  /-- The stable code of the error's kind. -/
  code : String
  /-- How serious it is. -/
  severity : Severity
  /-- The pass that it belongs to. -/
  phase : Phase
  /-- The wording of the error. -/
  message : String
  /-- The place that it points at, if any. -/
  location : Option Location
  /-- What might help. -/
  suggestions : List Suggestion
  deriving DecidableEq, Inhabited

/-- The answer to checking or running one file. -/
structure Feedback where
  /-- Did everything go well? -/
  success : Bool
  /-- The name of the file. -/
  sourceFile : String
  /-- What went wrong. -/
  diagnostics : List Report
  /-- The exit status of a program that ran to its end. -/
  exitCode : Option Int32
  deriving DecidableEq, Inhabited

/-! ## Suggestions -/

/-- A suggestion with a confidence given in tenths. -/
def Suggestion.tenths (confidence : Nat) (message : String) : Suggestion :=
  ⟨message, .nearest false confidence 10⟩

/-- Are the texts equal but for the case of ASCII letters? -/
def equalIgnoringCase (a b : String) : Bool :=
  a.toList.map Char.toLower == b.toList.map Char.toLower

/-- The name of the built-in type that differs from a name in the case of letters only. -/
def misspelledBuiltin? (name : String) : Option String :=
  (Ty.builtins.map Ty.text).find? fun known => equalIgnoringCase known name && known != name

/-- What might help against an error, in no particular order. -/
def Error.suggestions : Error → List Suggestion
  | .entryPoint _ =>
    [.tenths 9 "Declare `FUN main(): Integer DO ... END` taking no arguments"]
  | .unknownType name _ =>
    .tenths 6 "Use one of Nil, Boolean, Integer, Decimal, Character, String, Any, Comparable" ::
      match misspelledBuiltin? name with
      | some known => [.tenths 9 s!"Did you mean `{known}`?"]
      | none => []
  | .unresolvedName name _ =>
    [.tenths 7 s!"Declare `{name}` before using it",
      .tenths 5 "Bindings declared inside IF, SWITCH and WHILE bodies end with that body"]
  | .duplicateBinding name _ => [.tenths 8 s!"Rename one of the `{name}` declarations"]
  | .typeMismatch expected got _ =>
    .tenths 6 s!"Produce a value of type {expected} instead of {got}" ::
      ((if (expected, got) = ("Integer", "Decimal") ∨ (expected, got) = ("Decimal", "Integer") then
          [.tenths 9 "Integer and Decimal never mix; write both operands in the same kind"]
        else []) ++
      (if expected = "String" ∨ got = "String" then
          [.tenths 4 "`+` with a String operand concatenates; other operators do not"]
        else []))
  | .literalRange .. =>
    [.tenths 8 "Integer literals must fit in 32 bits and decimal literals in a double"]
  | .invalidForm .. =>
    [.tenths 5
      "Only function calls may stand alone and only variables or list elements may be assigned"]
  | .divisionByZero _ => [.tenths 8 "Guard the division with an IF on the divisor"]
  | .negativeExponent .. => [.tenths 9 "`^` only accepts non-negative Integer exponents"]
  | .indexOutOfBounds _ length _ =>
    let last := length - 1
    [.tenths 8 s!"Valid indices for this list are 0 to {last}"]
  | .io _ => []

/-! ## Reports -/

/-- May the first suggestion stand before the second? -/
def Suggestion.precedes (a b : Suggestion) : Bool := b.confidence.key ≤ a.confidence.key

/-- The same report with the most confident suggestions first; equally confident ones keep their
order. -/
def Report.sorted (r : Report) : Report :=
  { r with suggestions := r.suggestions.mergeSort Suggestion.precedes }

/-- The place in a file that an error points at; a span that belongs to no text is no place. -/
def Error.location? (e : Error) (file : String) : Option Location :=
  match e.span? with
  | some span => if span.isNowhere then none else some ⟨file, span.start, span.stop⟩
  | none => none

/-- The report of an error in a file. -/
def Report.ofError (e : Error) (file : String) : Report :=
  Report.sorted ⟨e.code, .error, e.phase, e.message, e.location? file, e.suggestions⟩

/-! ## Answers -/

/-- The answer when everything went well. -/
def Feedback.ofExit (file : String) (exitCode : Option Int32) : Feedback :=
  ⟨true, file, [], exitCode⟩

/-- The answer when an error ended the check or the run. -/
def Feedback.failure (file : String) (e : Error) : Feedback :=
  ⟨false, file, [Report.ofError e file], none⟩

end ImpTree
