import ImpTree.Tree

/-!
# The annotations of a tree

The contents of all slots of a program in the order in which its nodes are read, a node before its
parts; and the places of its statements in the same order.

* `Note` — the slots of one node.
* `Expr.notes`, `Stmt.notes`, `Program.notes` — the annotations of a node and its parts.
* `Program.stmtSpans` — the places of the statements.
-/

namespace ImpTree

/-- The slots of one node. -/
inductive Note where
  /-- The binding of a global. -/
  | global (binding : Slot VariableBinding)
  /-- The binding of a function. -/
  | function (binding : Slot FunctionBinding)
  /-- The binding of a declared variable. -/
  | declaration (binding : Slot VariableBinding)
  /-- The type of a constant. -/
  | literal (ty : Slot Ty)
  /-- The type of an expression in parentheses. -/
  | group (ty : Slot Ty)
  /-- The type of a result, with its operator. -/
  | binary (ty : Slot Ty) (op : BinaryOp)
  /-- The type of a variable or of an element, with the binding of the variable. -/
  | access (ty : Slot Ty) (binding : Slot VariableBinding)
  /-- The type of a call, with the binding of the function. -/
  | call (ty : Slot Ty) (binding : Slot FunctionBinding)
  /-- The type of a list. -/
  | list (ty : Slot Ty)
  deriving DecidableEq

/-! ## Expressions -/

mutual

/-- The annotations of an expression. -/
def Expr.notes : Expr → List Note
  | .literal _ _ ty => [.literal ty]
  | .group inner _ ty => .group ty :: Expr.notes inner
  | .binary op left right _ ty => .binary ty op :: (Expr.notes left ++ Expr.notes right)
  | .var _ binding _ ty => [.access ty binding]
  | .element _ offset binding _ ty => .access ty binding :: Expr.notes offset
  | .call _ arguments binding _ ty => .call ty binding :: Expr.listNotes arguments
  | .list elements _ ty => .list ty :: Expr.listNotes elements

/-- The annotations of expressions. -/
def Expr.listNotes : List Expr → List Note
  | [] => []
  | e :: rest => Expr.notes e ++ Expr.listNotes rest

end

/-- The annotations of an expression that may be missing. -/
def Expr.optionNotes : Option Expr → List Note
  | some e => e.notes
  | none => []

/-! ## Statements -/

mutual

/-- The annotations of a statement. -/
def Stmt.notes : Stmt → List Note
  | .expression expr _ => expr.notes
  | .declaration _ _ value binding _ => .declaration binding :: Expr.optionNotes value
  | .assignment receiver value _ => receiver.notes ++ value.notes
  | .ifElse condition thenBody elseBody _ =>
    condition.notes ++ (Stmt.blockNotes thenBody ++ Stmt.blockNotes elseBody)
  | .switch condition cases _ => condition.notes ++ Stmt.casesNotes cases
  | .whileLoop condition body _ => condition.notes ++ Stmt.blockNotes body
  | .ret value _ => value.notes

/-- The annotations of statements. -/
def Stmt.blockNotes : List Stmt → List Note
  | [] => []
  | s :: rest => Stmt.notes s ++ Stmt.blockNotes rest

/-- The annotations of an arm of a switch. -/
def Case.notes : Case → List Note
  | .mk value body _ => Expr.optionNotes value ++ Stmt.blockNotes body

/-- The annotations of the arms of a switch. -/
def Stmt.casesNotes : List Case → List Note
  | [] => []
  | c :: rest => Case.notes c ++ Stmt.casesNotes rest

end

mutual

/-- The place of a statement and those of the statements inside it. -/
def Stmt.spans : Stmt → List Span
  | .ifElse _ thenBody elseBody span =>
    span :: (Stmt.blockSpans thenBody ++ Stmt.blockSpans elseBody)
  | .switch _ cases span => span :: Stmt.casesSpans cases
  | .whileLoop _ body span => span :: Stmt.blockSpans body
  | .expression _ span | .declaration _ _ _ _ span | .assignment _ _ span | .ret _ span => [span]

/-- The places of statements. -/
def Stmt.blockSpans : List Stmt → List Span
  | [] => []
  | s :: rest => Stmt.spans s ++ Stmt.blockSpans rest

/-- The places of the statements in an arm of a switch. -/
def Case.spans : Case → List Span
  | .mk _ body _ => Stmt.blockSpans body

/-- The places of the statements in the arms of a switch. -/
def Stmt.casesSpans : List Case → List Span
  | [] => []
  | c :: rest => Case.spans c ++ Stmt.casesSpans rest

end

/-! ## Programs -/

/-- The annotations of a program. -/
def Program.notes (p : Program) : List Note :=
  (p.globals.flatMap fun g => .global g.binding :: Expr.optionNotes g.value) ++
    p.functions.flatMap fun f => .function f.binding :: Stmt.blockNotes f.body

/-- The places of all statements of a program. -/
def Program.stmtSpans (p : Program) : List Span :=
  p.functions.flatMap fun f => Stmt.blockSpans f.body

end ImpTree
