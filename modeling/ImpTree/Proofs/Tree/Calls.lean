import ImpTree.Tree

/-!
# Names that a tree uses

* `Expr.reads`, `Stmt.uses` — the names of the variables that a node reads or assigns to.
* `Expr.calls`, `Stmt.calls` — the calls that stand in a node: the name of the function and the
  number of arguments.
-/

namespace ImpTree

/-! ## Expressions -/

mutual

/-- The names of the variables that an expression reads itself, not in the functions it calls. -/
def Expr.reads : Expr → List String
  | .literal _ _ _ => []
  | .group inner _ _ => inner.reads
  | .binary _ left right _ _ => left.reads ++ right.reads
  | .var name _ _ _ => [name]
  | .element name offset _ _ _ => name :: offset.reads
  | .call _ arguments _ _ _ => Expr.allReads arguments
  | .list elements _ _ => Expr.allReads elements

/-- The names of the variables that expressions read. -/
def Expr.allReads : List Expr → List String
  | [] => []
  | e :: rest => e.reads ++ Expr.allReads rest

end

/-- The names of the variables that an expression reads, if there is one. -/
def Expr.optionReads : Option Expr → List String
  | some e => e.reads
  | none => []

mutual

/-- The calls in an expression. -/
def Expr.calls : Expr → List (String × Nat)
  | .literal _ _ _ => []
  | .group inner _ _ => inner.calls
  | .binary _ left right _ _ => left.calls ++ right.calls
  | .var _ _ _ _ => []
  | .element _ offset _ _ _ => offset.calls
  | .call name arguments _ _ _ => (name, arguments.length) :: Expr.allCalls arguments
  | .list elements _ _ => Expr.allCalls elements

/-- The calls in expressions. -/
def Expr.allCalls : List Expr → List (String × Nat)
  | [] => []
  | e :: rest => e.calls ++ Expr.allCalls rest

end

/-- The calls in an expression that may be missing. -/
def Expr.optionCalls : Option Expr → List (String × Nat)
  | some e => e.calls
  | none => []

/-! ## Statements -/

mutual

/-- The names of the variables that a statement reads or assigns to itself, not in the functions it
calls. -/
def Stmt.uses : Stmt → List String
  | .expression expr _ => expr.reads
  | .declaration _ _ value _ _ => Expr.optionReads value
  | .assignment receiver value _ => receiver.reads ++ value.reads
  | .ifElse condition thenBody elseBody _ =>
    condition.reads ++ (Stmt.blockUses thenBody ++ Stmt.blockUses elseBody)
  | .switch condition cases _ => condition.reads ++ Stmt.casesUses cases
  | .whileLoop condition body _ => condition.reads ++ Stmt.blockUses body
  | .ret value _ => value.reads

/-- The names of the variables that statements read or assign to. -/
def Stmt.blockUses : List Stmt → List String
  | [] => []
  | stmt :: rest => stmt.uses ++ Stmt.blockUses rest

/-- The names of the variables that the arms of a switch read or assign to. -/
def Stmt.casesUses : List Case → List String
  | [] => []
  | .mk value body _ :: rest =>
    Expr.optionReads value ++ (Stmt.blockUses body ++ Stmt.casesUses rest)

end

mutual

/-- The calls in a statement. -/
def Stmt.calls : Stmt → List (String × Nat)
  | .expression expr _ => expr.calls
  | .declaration _ _ value _ _ => Expr.optionCalls value
  | .assignment receiver value _ => receiver.calls ++ value.calls
  | .ifElse condition thenBody elseBody _ =>
    condition.calls ++ (Stmt.blockCalls thenBody ++ Stmt.blockCalls elseBody)
  | .switch condition cases _ => condition.calls ++ Stmt.casesCalls cases
  | .whileLoop condition body _ => condition.calls ++ Stmt.blockCalls body
  | .ret value _ => value.calls

/-- The calls in statements. -/
def Stmt.blockCalls : List Stmt → List (String × Nat)
  | [] => []
  | stmt :: rest => stmt.calls ++ Stmt.blockCalls rest

/-- The calls in the arms of a switch. -/
def Stmt.casesCalls : List Case → List (String × Nat)
  | [] => []
  | .mk value body _ :: rest =>
    Expr.optionCalls value ++ (Stmt.blockCalls body ++ Stmt.casesCalls rest)

end

end ImpTree
