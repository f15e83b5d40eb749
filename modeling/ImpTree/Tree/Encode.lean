import ImpTree.Json
import ImpTree.Tree

/-!
# Trees as JSON documents: writing

Every node is a record with its fields in the order of its declaration; what has several forms is an
object whose one member is named for the form.  Annotation slots are not written.

* `Expr.toJson`, `Stmt.toJson`, `Program.toJson` — the document of a node.
* `Program.text` — the compact form of a program's document.
-/

namespace ImpTree

/-- A form with its content. -/
def Json.form (name : String) (content : Json) : Json := .record [(name, content)]

/-- The document of a span. -/
def Span.toJson (s : Span) : Json :=
  .record [("start", .nat s.start.toNat), ("end", .nat s.stop.toNat)]

/-! ## Expressions -/

/-- The document of a constant.  Numbers are written as texts, so that they keep every digit. -/
def Literal.toJson : Literal → Json
  | .nil => .text "Nil"
  | .boolean b => .form "Boolean" (.bool b)
  | .integer n => .form "Integer" (.text (Integer.text n))
  | .decimal d => .form "Decimal" (.text d.text)
  | .character c => .form "Character" (.text (String.singleton c))
  | .string s => .form "String" (.text s)

/-- The document of an expression of a given form. -/
def Expr.node (kind : Json) (span : Span) : Json :=
  .record [("kind", kind), ("span", span.toJson)]

mutual

/-- The document of an expression. -/
def Expr.toJson : Expr → Json
  | .literal value span _ => Expr.node (.form "Literal" value.toJson) span
  | .group inner span _ => Expr.node (.form "Group" (Expr.toJson inner)) span
  | .binary op left right span _ =>
    Expr.node
      (.form "Binary" (.record
        [("op", .text op.symbol), ("left", Expr.toJson left), ("right", Expr.toJson right)]))
      span
  | .var name _ span _ =>
    Expr.node (.form "Access" (.record [("name", .text name), ("offset", .null)])) span
  | .element name offset _ span _ =>
    Expr.node (.form "Access" (.record [("name", .text name), ("offset", Expr.toJson offset)])) span
  | .call name arguments _ span _ =>
    Expr.node
      (.form "FunctionCall" (.record
        [("name", .text name), ("arguments", .list (Expr.listToJson arguments))]))
      span
  | .list elements span _ => Expr.node (.form "List" (.list (Expr.listToJson elements))) span

/-- The documents of expressions. -/
def Expr.listToJson : List Expr → List Json
  | [] => []
  | e :: rest => Expr.toJson e :: Expr.listToJson rest

end

/-! ## Statements -/

mutual

/-- The document of a statement. -/
def Stmt.toJson : Stmt → Json
  | .expression expr span =>
    .form "Expression" (.record [("expr", expr.toJson), ("span", span.toJson)])
  | .declaration name typeName value _ span =>
    .form "Declaration" (.record
      [("name", .text name), ("type_name", .option Json.text typeName),
        ("value", .option Expr.toJson value), ("span", span.toJson)])
  | .assignment receiver value span =>
    .form "Assignment" (.record
      [("receiver", receiver.toJson), ("value", value.toJson), ("span", span.toJson)])
  | .ifElse condition thenBody elseBody span =>
    .form "If" (.record
      [("condition", condition.toJson), ("then_statements", .list (Stmt.blockToJson thenBody)),
        ("else_statements", .list (Stmt.blockToJson elseBody)), ("span", span.toJson)])
  | .switch condition cases span =>
    .form "Switch" (.record
      [("condition", condition.toJson), ("cases", .list (Stmt.casesToJson cases)),
        ("span", span.toJson)])
  | .whileLoop condition body span =>
    .form "While" (.record
      [("condition", condition.toJson), ("statements", .list (Stmt.blockToJson body)),
        ("span", span.toJson)])
  | .ret value span => .form "Return" (.record [("value", value.toJson), ("span", span.toJson)])

/-- The documents of statements. -/
def Stmt.blockToJson : List Stmt → List Json
  | [] => []
  | s :: rest => Stmt.toJson s :: Stmt.blockToJson rest

/-- The document of an arm of a switch. -/
def Case.toJson : Case → Json
  | .mk value body span =>
    .record
      [("value", .option Expr.toJson value), ("statements", .list (Stmt.blockToJson body)),
        ("span", span.toJson)]

/-- The documents of the arms of a switch. -/
def Stmt.casesToJson : List Case → List Json
  | [] => []
  | c :: rest => Case.toJson c :: Stmt.casesToJson rest

end

/-! ## Programs -/

/-- The document of a global. -/
def Global.toJson (g : Global) : Json :=
  .record
    [("name", .text g.name), ("mutable", .bool g.isMutable),
      ("type_name", .option Json.text g.typeName), ("value", .option Expr.toJson g.value),
      ("span", g.span.toJson)]

/-- The document of a function. -/
def FunctionDef.toJson (f : FunctionDef) : Json :=
  .record
    [("name", .text f.name), ("parameters", .list (f.parameters.map Json.text)),
      ("parameter_type_names", .list (f.parameterTypeNames.map Json.text)),
      ("return_type_name", .option Json.text f.returnTypeName),
      ("statements", .list (Stmt.blockToJson f.body)), ("span", f.span.toJson)]

/-- The document of a program. -/
def Program.toJson (p : Program) : Json :=
  .record
    [("globals", .list (p.globals.map Global.toJson)),
      ("functions", .list (p.functions.map FunctionDef.toJson))]

/-- The compact form of a program's document. -/
def Program.text (p : Program) : String := p.toJson.compact

end ImpTree
