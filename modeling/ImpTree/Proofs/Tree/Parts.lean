import ImpTree.Tree

/-!
# The parts of a tree

All expressions and all statements of a tree in the order in which they are read, a node before its
parts.

* `Expr.parts`, `Stmt.exprs`, `Program.exprs` — the expressions of a node.
* `Stmt.parts`, `Program.stmts` — the statements of a node.
-/

namespace ImpTree

/-! ## Expressions -/

mutual

/-- The expression and the expressions inside it. -/
def Expr.parts : Expr → List Expr
  | .literal value span ty => [.literal value span ty]
  | .group inner span ty => .group inner span ty :: inner.parts
  | .binary op left right span ty =>
    .binary op left right span ty :: (left.parts ++ right.parts)
  | .var name binding span ty => [.var name binding span ty]
  | .element name offset binding span ty => .element name offset binding span ty :: offset.parts
  | .call name arguments binding span ty =>
    .call name arguments binding span ty :: Expr.allParts arguments
  | .list elements span ty => .list elements span ty :: Expr.allParts elements

/-- The expressions and the expressions inside them. -/
def Expr.allParts : List Expr → List Expr
  | [] => []
  | e :: rest => e.parts ++ Expr.allParts rest

end

/-- The parts of an expression that may be missing. -/
def Expr.optionParts : Option Expr → List Expr
  | some e => e.parts
  | none => []

/-! ## Statements -/

mutual

/-- The expressions inside a statement. -/
def Stmt.exprs : Stmt → List Expr
  | .expression expr _ => expr.parts
  | .declaration _ _ value _ _ => Expr.optionParts value
  | .assignment receiver value _ => receiver.parts ++ value.parts
  | .ifElse condition thenBody elseBody _ =>
    condition.parts ++ (Stmt.blockExprs thenBody ++ Stmt.blockExprs elseBody)
  | .switch condition cases _ => condition.parts ++ Stmt.casesExprs cases
  | .whileLoop condition body _ => condition.parts ++ Stmt.blockExprs body
  | .ret value _ => value.parts

/-- The expressions inside statements. -/
def Stmt.blockExprs : List Stmt → List Expr
  | [] => []
  | stmt :: rest => stmt.exprs ++ Stmt.blockExprs rest

/-- The expressions inside the arms of a switch. -/
def Stmt.casesExprs : List Case → List Expr
  | [] => []
  | .mk value body _ :: rest =>
    Expr.optionParts value ++ (Stmt.blockExprs body ++ Stmt.casesExprs rest)

end

mutual

/-- The statement and the statements inside it. -/
def Stmt.parts : Stmt → List Stmt
  | .expression expr span => [.expression expr span]
  | .declaration name typeName value binding span =>
    [.declaration name typeName value binding span]
  | .assignment receiver value span => [.assignment receiver value span]
  | .ifElse condition thenBody elseBody span =>
    .ifElse condition thenBody elseBody span ::
      (Stmt.blockParts thenBody ++ Stmt.blockParts elseBody)
  | .switch condition cases span => .switch condition cases span :: Stmt.casesParts cases
  | .whileLoop condition body span => .whileLoop condition body span :: Stmt.blockParts body
  | .ret value span => [.ret value span]

/-- The statements and the statements inside them. -/
def Stmt.blockParts : List Stmt → List Stmt
  | [] => []
  | stmt :: rest => stmt.parts ++ Stmt.blockParts rest

/-- The statements inside the arms of a switch. -/
def Stmt.casesParts : List Case → List Stmt
  | [] => []
  | .mk _ body _ :: rest => Stmt.blockParts body ++ Stmt.casesParts rest

end

/-! ## Programs -/

/-- The expressions of a program. -/
def Program.exprs (p : Program) : List Expr :=
  (p.globals.flatMap fun g => Expr.optionParts g.value) ++
    p.functions.flatMap fun f => Stmt.blockExprs f.body

/-- The statements of a program. -/
def Program.stmts (p : Program) : List Stmt := p.functions.flatMap fun f => Stmt.blockParts f.body

end ImpTree
