import ImpTree.Span

/-!
# Errors

What can go wrong when a program is checked or run.  Every error ends the pass that raises it.

* `Error` — the causes.
* `Error.message`, `Error.code`, `Error.phase`, `Error.span?` — what a diagnostic says of each.
-/

namespace ImpTree

/-- The pass that an error belongs to. -/
inductive Phase where
  /-- Checking a program. -/
  | analysis
  /-- Running a program. -/
  | runtime
  deriving DecidableEq, Inhabited

/-- The name of a phase, as diagnostics write it. -/
def Phase.text : Phase → String
  | .analysis => "analysis"
  | .runtime => "runtime"

/-- The cause for which a pass over a program ends early. -/
inductive Error where
  /-- There is no usable `main`. -/
  | entryPoint (reason : String)
  /-- A type name stands for no type. -/
  | unknownType (name : String) (span : Span)
  /-- A name, or a name with a number of arguments, is bound nowhere. -/
  | unresolvedName (name : String) (span : Span)
  /-- A name is declared twice in one scope. -/
  | duplicateBinding (name : String) (span : Span)
  /-- A type, or a kind of value, stands where another is needed. -/
  | typeMismatch (expected got : String) (span : Span)
  /-- A literal is too large for its type. -/
  | literalRange (literal : String) (span : Span)
  /-- A node stands where its form is not allowed. -/
  | invalidForm (reason : String) (span : Span)
  /-- A quotient with a zero divisor. -/
  | divisionByZero (span : Span)
  /-- A power with a negative exponent. -/
  | negativeExponent (exponent : String) (span : Span)
  /-- A list has no element at the index. -/
  | indexOutOfBounds (index : String) (length : Nat) (span : Span)
  /-- The output could not be written. -/
  | io (reason : String)
  deriving DecidableEq, Inhabited

namespace Error

/-- The place that an error points at, if it has one. -/
def span? : Error → Option Span
  | unknownType _ span | unresolvedName _ span | duplicateBinding _ span | typeMismatch _ _ span
  | literalRange _ span | invalidForm _ span | divisionByZero span | negativeExponent _ span
  | indexOutOfBounds _ _ span => some span
  | entryPoint _ | io _ => none

/-- The stable code of an error's kind. -/
def code : Error → String
  | entryPoint _ => "E0001"
  | unknownType .. => "E0002"
  | unresolvedName .. => "E0003"
  | duplicateBinding .. => "E0004"
  | typeMismatch .. => "E0005"
  | literalRange .. => "E0006"
  | invalidForm .. => "E0007"
  | divisionByZero _ => "E0101"
  | negativeExponent .. => "E0102"
  | indexOutOfBounds .. => "E0103"
  | io _ => "E0104"

/-- The phase under which an error is reported.  A mismatch or an unresolved name counts as an
analysis error also when an unchecked program runs into it. -/
def phase : Error → Phase
  | divisionByZero _ | negativeExponent .. | indexOutOfBounds .. | io _ => .runtime
  | _ => .analysis

/-- The wording of an error. -/
def message : Error → String
  | entryPoint reason => s!"Missing entry point: {reason}"
  | unknownType name _ => s!"Unknown type: {name}"
  | unresolvedName name _ => s!"Unresolved name: {name}"
  | duplicateBinding name _ => s!"Duplicate binding: {name}"
  | typeMismatch expected got _ => s!"Type mismatch: expected {expected}, got {got}"
  | literalRange literal _ => s!"Literal out of range: {literal}"
  | invalidForm reason _ => s!"Invalid statement form: {reason}"
  | divisionByZero _ => "Division by zero"
  | negativeExponent exponent _ => s!"Negative exponent: {exponent}"
  | indexOutOfBounds index length _ => s!"Index {index} out of bounds for list of length {length}"
  | io reason => s!"IO error: {reason}"

end Error

end ImpTree
