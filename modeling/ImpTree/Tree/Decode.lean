import ImpTree.Json.Decoder
import ImpTree.Json.Reader
import ImpTree.Tree

/-!
# Trees as JSON documents: reading

The reverse of writing, somewhat more liberal: a record may also be a list of its fields, fields
with an obvious default may be missing, and unknown members do not count.  All slots of a tree that
was read are empty.

Every decoder takes the number of brackets that may still be nested; one that looks into a bracket
works with one less inside.

* `Expr.decode`, `Stmt.decode`, `Program.decode` — the node that a document stands for.
* `Program.parse?` — the program that a text stands for.
-/

namespace ImpTree

/-- The span that a document stands for. -/
def Span.decode : Nat → Json → Option Span
  | 0, _ => none
  | _ + 1, j => do
    let [start, stop] ← j.fields? ["start", "end"] 2 | none
    let start ← Json.required Json.uint64? start
    let stop ← Json.required Json.uint64? stop
    return ⟨start, stop⟩

/-- The span of a record, which may be left out. -/
def Span.decodeField (depth : Nat) : Option Json → Option Span :=
  Json.defaulted .nowhere (Span.decode depth)

/-! ## Expressions -/

/-- The content of a constant of a given form. -/
def Literal.decodeForm (name : String) (content : Json) : Option Literal :=
  match name with
  | "Boolean" => content.bool?.map .boolean
  | "Integer" => (content.text?.bind Integer.parse?).map .integer
  | "Decimal" => (content.text?.bind Decimal.parse?).map .decimal
  | "Character" => content.char?.map .character
  | "String" => content.text?.map .string
  | _ => none

/-- The constant that a document stands for. -/
def Literal.decode (depth : Nat) (j : Json) : Option Literal :=
  match j.word? depth with
  | some name => if name = "Nil" then some .nil else none
  | none =>
    if depth = 0 then none
    else do
      let (name, content) ← j.variant?
      Literal.decodeForm name content

/-- The operator that a document stands for. -/
def BinaryOp.decode (depth : Nat) (j : Json) : Option BinaryOp := do
  BinaryOp.ofSymbol? (← j.word? depth)

mutual

/-- The expression that a document stands for. -/
def Expr.decode : Nat → Json → Option Expr
  | 0, _ => none
  | depth + 1, j => do
    let [kind, span] ← j.fields? ["kind", "span"] 1 | none
    let kind ← kind
    let span ← Span.decodeField depth span
    Expr.decodeKind depth kind span

/-- The expression of a given form at a given place. -/
def Expr.decodeKind : Nat → Json → Span → Option Expr
  | 0, _, _ => none
  | depth + 1, j, span => do
    let (name, content) ← j.variant?
    match name with
    | "Literal" => do
      let value ← Literal.decode depth content
      return .literal value span none
    | "Group" => do
      let inner ← Expr.decode depth content
      return .group inner span none
    | "Binary" => Expr.decodeBinary depth content span
    | "Access" => Expr.decodeAccess depth content span
    | "FunctionCall" => Expr.decodeCall depth content span
    | "List" => do
      let elements ← Expr.decodeList depth content
      return .list elements span none
    | _ => none

/-- The parts of an operator between two operands. -/
def Expr.decodeBinary : Nat → Json → Span → Option Expr
  | 0, _, _ => none
  | depth + 1, j, span => do
    let [op, left, right] ← j.fields? ["op", "left", "right"] 3 | none
    let op ← Json.required (BinaryOp.decode depth) op
    let left ← Json.required (Expr.decode depth) left
    let right ← Json.required (Expr.decode depth) right
    return .binary op left right span none

/-- The parts of a variable or of an element of a list. -/
def Expr.decodeAccess : Nat → Json → Span → Option Expr
  | 0, _, _ => none
  | depth + 1, j, span => do
    let [name, offset] ← j.fields? ["name", "offset"] 1 | none
    let name ← Json.required Json.text? name
    let offset ← Json.optional (Expr.decode depth) offset
    match offset with
    | none => return .var name none span none
    | some offset => return .element name offset none span none

/-- The parts of a call. -/
def Expr.decodeCall : Nat → Json → Span → Option Expr
  | 0, _, _ => none
  | depth + 1, j, span => do
    let [name, arguments] ← j.fields? ["name", "arguments"] 2 | none
    let name ← Json.required Json.text? name
    let arguments ← Json.required (Expr.decodeList depth) arguments
    return .call name arguments none span none

/-- A list of expressions. -/
def Expr.decodeList : Nat → Json → Option (List Expr)
  | 0, _ => none
  | depth + 1, j => do (← j.items?).mapM (Expr.decode depth)

end

/-! ## Statements -/

/-- The parts of a call made for its effects. -/
def Stmt.decodeExpression : Nat → Json → Option Stmt
  | 0, _ => none
  | depth + 1, j => do
    let [expr, span] ← j.fields? ["expr", "span"] 1 | none
    let expr ← Json.required (Expr.decode depth) expr
    let span ← Span.decodeField depth span
    return .expression expr span

/-- The parts of a declaration. -/
def Stmt.decodeDeclaration : Nat → Json → Option Stmt
  | 0, _ => none
  | depth + 1, j => do
    let [name, typeName, value, span] ←
      j.fields? ["name", "type_name", "value", "span"] 1 | none
    let name ← Json.required Json.text? name
    let typeName ← Json.optional Json.text? typeName
    let value ← Json.optional (Expr.decode depth) value
    let span ← Span.decodeField depth span
    return .declaration name typeName value none span

/-- The parts of an assignment. -/
def Stmt.decodeAssignment : Nat → Json → Option Stmt
  | 0, _ => none
  | depth + 1, j => do
    let [receiver, value, span] ← j.fields? ["receiver", "value", "span"] 2 | none
    let receiver ← Json.required (Expr.decode depth) receiver
    let value ← Json.required (Expr.decode depth) value
    let span ← Span.decodeField depth span
    return .assignment receiver value span

/-- The parts of the end of a function. -/
def Stmt.decodeReturn : Nat → Json → Option Stmt
  | 0, _ => none
  | depth + 1, j => do
    let [value, span] ← j.fields? ["value", "span"] 1 | none
    let value ← Json.required (Expr.decode depth) value
    let span ← Span.decodeField depth span
    return .ret value span

mutual

/-- The statement that a document stands for. -/
def Stmt.decode : Nat → Json → Option Stmt
  | 0, _ => none
  | depth + 1, j => do
    let (name, content) ← j.variant?
    match name with
    | "Expression" => Stmt.decodeExpression depth content
    | "Declaration" => Stmt.decodeDeclaration depth content
    | "Assignment" => Stmt.decodeAssignment depth content
    | "If" => Stmt.decodeIf depth content
    | "Switch" => Stmt.decodeSwitch depth content
    | "While" => Stmt.decodeWhile depth content
    | "Return" => Stmt.decodeReturn depth content
    | _ => none

/-- The parts of a choice between two blocks. -/
def Stmt.decodeIf : Nat → Json → Option Stmt
  | 0, _ => none
  | depth + 1, j => do
    let [condition, thenBody, elseBody, span] ←
      j.fields? ["condition", "then_statements", "else_statements", "span"] 2 | none
    let condition ← Json.required (Expr.decode depth) condition
    let thenBody ← Json.required (Stmt.decodeBlock depth) thenBody
    let elseBody ← Json.defaulted [] (Stmt.decodeBlock depth) elseBody
    let span ← Span.decodeField depth span
    return .ifElse condition thenBody elseBody span

/-- The parts of a switch. -/
def Stmt.decodeSwitch : Nat → Json → Option Stmt
  | 0, _ => none
  | depth + 1, j => do
    let [condition, cases, span] ← j.fields? ["condition", "cases", "span"] 2 | none
    let condition ← Json.required (Expr.decode depth) condition
    let cases ← Json.required (Stmt.decodeCases depth) cases
    let span ← Span.decodeField depth span
    return .switch condition cases span

/-- The parts of a loop. -/
def Stmt.decodeWhile : Nat → Json → Option Stmt
  | 0, _ => none
  | depth + 1, j => do
    let [condition, body, span] ← j.fields? ["condition", "statements", "span"] 2 | none
    let condition ← Json.required (Expr.decode depth) condition
    let body ← Json.required (Stmt.decodeBlock depth) body
    let span ← Span.decodeField depth span
    return .whileLoop condition body span

/-- A list of statements. -/
def Stmt.decodeBlock : Nat → Json → Option (List Stmt)
  | 0, _ => none
  | depth + 1, j => do (← j.items?).mapM (Stmt.decode depth)

/-- The arm of a switch that a document stands for. -/
def Case.decode : Nat → Json → Option Case
  | 0, _ => none
  | depth + 1, j => do
    let [value, body, span] ← j.fields? ["value", "statements", "span"] 2 | none
    let value ← Json.optional (Expr.decode depth) value
    let body ← Json.required (Stmt.decodeBlock depth) body
    let span ← Span.decodeField depth span
    return .mk value body span

/-- A list of arms of a switch. -/
def Stmt.decodeCases : Nat → Json → Option (List Case)
  | 0, _ => none
  | depth + 1, j => do (← j.items?).mapM (Case.decode depth)

end

/-! ## Programs -/

/-- The global that a document stands for. -/
def Global.decode : Nat → Json → Option Global
  | 0, _ => none
  | depth + 1, j => do
    let [name, isMutable, typeName, value, span] ←
      j.fields? ["name", "mutable", "type_name", "value", "span"] 2 | none
    let name ← Json.required Json.text? name
    let isMutable ← Json.required Json.bool? isMutable
    let typeName ← Json.optional Json.text? typeName
    let value ← Json.optional (Expr.decode depth) value
    let span ← Span.decodeField depth span
    return ⟨name, isMutable, typeName, value, span, none⟩

/-- A list of texts. -/
def Json.decodeTexts : Nat → Json → Option (List String) := Json.listOf fun _ j => j.text?

/-- The function that a document stands for. -/
def FunctionDef.decode : Nat → Json → Option FunctionDef
  | 0, _ => none
  | depth + 1, j => do
    let [name, parameters, parameterTypeNames, returnTypeName, body, span] ←
      j.fields? ["name", "parameters", "parameter_type_names", "return_type_name", "statements",
        "span"] 5 | none
    let name ← Json.required Json.text? name
    let parameters ← Json.required (Json.decodeTexts depth) parameters
    let parameterTypeNames ← Json.required (Json.decodeTexts depth) parameterTypeNames
    let returnTypeName ← Json.optional Json.text? returnTypeName
    let body ← Json.required (Stmt.decodeBlock depth) body
    let span ← Span.decodeField depth span
    return ⟨name, parameters, parameterTypeNames, returnTypeName, body, span, none⟩

/-- The program that a document stands for, within a number of nested brackets. -/
def Program.decodeWithin : Nat → Json → Option Program
  | 0, _ => none
  | depth + 1, j => do
    let [globals, functions] ← j.fields? ["globals", "functions"] 0 | none
    let globals ← Json.defaulted [] (Json.listOf Global.decode depth) globals
    let functions ← Json.defaulted [] (Json.listOf FunctionDef.decode depth) functions
    return ⟨globals, functions⟩

/-- The program that a document stands for. -/
def Program.decode (j : Json) : Option Program := Program.decodeWithin Json.maxDepth j

/-- The program that a text stands for. -/
def Program.parse? (s : String) : Option Program := do Program.decode (← Json.parse? s)

end ImpTree
