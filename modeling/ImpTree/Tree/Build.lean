import ImpTree.Tree

/-!
# Building trees

Nodes for trees that come from no text.  All slots are empty; a node takes its span from its parts
where it has parts with a span.

* `Build.literal`, …, `Build.list` — expressions.
* `Build.expression`, …, `Build.ret` — statements.
* `Build.case`, `Build.defaultCase`, `Build.global`, `Build.function` — the rest of a program.
-/

namespace ImpTree.Build

/-! ## Expressions -/

/-- A constant. -/
def literal (value : Literal) : Expr := .literal value .nowhere none

/-- An expression in parentheses, at the place of the expression. -/
def group (inner : Expr) : Expr := .group inner inner.span none

/-- An operator between two operands, at the smallest place that covers both. -/
def binary (op : BinaryOp) (left right : Expr) : Expr :=
  .binary op left right (left.span.cover right.span) none

/-- The value of a variable. -/
def var (name : String) : Expr := .var name none .nowhere none

/-- One element of the list that a variable holds, at the place of the index. -/
def element (name : String) (offset : Expr) : Expr := .element name offset none offset.span none

/-- A function applied to arguments. -/
def call (name : String) (arguments : List Expr) : Expr := .call name arguments none .nowhere none

/-- A list. -/
def list (elements : List Expr) : Expr := .list elements .nowhere none

/-! ## Statements -/

/-- A call made for its effects, at the place of the call. -/
def expression (expr : Expr) : Stmt := .expression expr expr.span

/-- A new variable. -/
def declaration (name : String) (typeName : Option String) (value : Option Expr) : Stmt :=
  .declaration name typeName value none .nowhere

/-- An assignment, at the smallest place that covers both sides. -/
def assignment (receiver value : Expr) : Stmt :=
  .assignment receiver value (receiver.span.cover value.span)

/-- One of two blocks, at the place of the condition. -/
def ifElse (condition : Expr) (thenBody elseBody : List Stmt) : Stmt :=
  .ifElse condition thenBody elseBody condition.span

/-- A switch, at the place of the condition. -/
def switch (condition : Expr) (cases : List Case) : Stmt := .switch condition cases condition.span

/-- A loop, at the place of the condition. -/
def whileLoop (condition : Expr) (body : List Stmt) : Stmt :=
  .whileLoop condition body condition.span

/-- The end of a function, at the place of its result. -/
def ret (value : Expr) : Stmt := .ret value value.span

/-- An arm of a switch for one value. -/
def case (value : Expr) (body : List Stmt) : Case := .mk (some value) body .nowhere

/-- The last arm of a switch. -/
def defaultCase (body : List Stmt) : Case := .mk none body .nowhere

/-! ## Programs -/

/-- A variable of the whole program. -/
def global (name : String) (isMutable : Bool) (typeName : Option String) (value : Option Expr) :
    Global :=
  ⟨name, isMutable, typeName, value, .nowhere, none⟩

/-- A function; each parameter comes with the name of its type. -/
def function (name : String) (parameters : List (String × String))
    (returnTypeName : Option String) (body : List Stmt) : FunctionDef :=
  ⟨name, parameters.map (·.1), parameters.map (·.2), returnTypeName, body, .nowhere, none⟩

end ImpTree.Build
