import ImpTree.Binary64.Reader
import ImpTree.Binary64.Shortest
import ImpTree.Feedback
import ImpTree.Json.Decoder
import ImpTree.Json.Reader

/-!
# Feedback as JSON documents

Records with their fields in the order of their declaration, indented by two blanks a level.

* `Feedback.toJson`, `Feedback.text` — writing.
* `Feedback.decode`, `Feedback.parse?` — reading.
-/

namespace ImpTree

/-! ## Writing -/

/-- The document of a suggestion. -/
def Suggestion.toJson (s : Suggestion) : Json :=
  .record [("message", .text s.message), ("confidence", .number s.confidence.numeral)]

/-- The document of a place. -/
def Location.toJson (l : Location) : Json :=
  .record
    [("file", .text l.file), ("start", .nat l.start.toNat), ("end", .nat l.stop.toNat)]

/-- The word for a severity. -/
def Severity.text : Severity → String
  | .error => "Error"

/-- The document of a report. -/
def Report.toJson (r : Report) : Json :=
  .record
    [("code", .text r.code), ("severity", .text r.severity.text), ("phase", .text r.phase.text),
      ("message", .text r.message), ("location", .option Location.toJson r.location),
      ("suggestions", .list (r.suggestions.map Suggestion.toJson))]

/-- The document of an answer. -/
def Feedback.toJson (f : Feedback) : Json :=
  .record
    [("success", .bool f.success), ("source_file", .text f.sourceFile),
      ("diagnostics", .list (f.diagnostics.map Report.toJson)),
      ("exit_code", .option (fun code => .int code.toInt) f.exitCode)]

/-- The written form of an answer. -/
def Feedback.text (f : Feedback) : String := f.toJson.pretty

/-! ## Reading -/

/-- The number that a document stands for. -/
def Binary64.decode : Json → Option Binary64
  | .number n => Binary64.ofNumeral? n
  | _ => none

/-- The suggestion that a document stands for. -/
def Suggestion.decode : Nat → Json → Option Suggestion
  | 0, _ => none
  | _ + 1, j => do
    let [message, confidence] ← j.fields? ["message", "confidence"] 2 | none
    let message ← Json.required Json.text? message
    let confidence ← Json.required Binary64.decode confidence
    return ⟨message, confidence⟩

/-- The place that a document stands for. -/
def Location.decode : Nat → Json → Option Location
  | 0, _ => none
  | _ + 1, j => do
    let [file, start, stop] ← j.fields? ["file", "start", "end"] 3 | none
    let file ← Json.required Json.text? file
    let start ← Json.required Json.uint64? start
    let stop ← Json.required Json.uint64? stop
    return ⟨file, start, stop⟩

/-- The severity that a document stands for. -/
def Severity.decode (depth : Nat) (j : Json) : Option Severity := do
  if (← j.word? depth) = Severity.error.text then some .error else none

/-- The phase that a document stands for. -/
def Phase.decode (depth : Nat) (j : Json) : Option Phase := do
  let word ← j.word? depth
  [Phase.analysis, Phase.runtime].find? fun phase => phase.text == word

/-- The report that a document stands for. -/
def Report.decode : Nat → Json → Option Report
  | 0, _ => none
  | depth + 1, j => do
    let [code, severity, phase, message, location, suggestions] ←
      j.fields? ["code", "severity", "phase", "message", "location", "suggestions"] 6 | none
    let code ← Json.required Json.text? code
    let severity ← Json.required (Severity.decode depth) severity
    let phase ← Json.required (Phase.decode depth) phase
    let message ← Json.required Json.text? message
    let location ← Json.optional (Location.decode depth) location
    let suggestions ← Json.required (Json.listOf Suggestion.decode depth) suggestions
    return ⟨code, severity, phase, message, location, suggestions⟩

/-- The answer that a document stands for, within a number of nested brackets. -/
def Feedback.decodeWithin : Nat → Json → Option Feedback
  | 0, _ => none
  | depth + 1, j => do
    let [success, sourceFile, diagnostics, exitCode] ←
      j.fields? ["success", "source_file", "diagnostics", "exit_code"] 4 | none
    let success ← Json.required Json.bool? success
    let sourceFile ← Json.required Json.text? sourceFile
    let diagnostics ← Json.required (Json.listOf Report.decode depth) diagnostics
    let exitCode ← Json.optional Json.int32? exitCode
    return ⟨success, sourceFile, diagnostics, exitCode⟩

/-- The answer that a document stands for. -/
def Feedback.decode (j : Json) : Option Feedback := Feedback.decodeWithin Json.maxDepth j

/-- The answer that a text stands for. -/
def Feedback.parse? (s : String) : Option Feedback := do Feedback.decode (← Json.parse? s)

end ImpTree
