import ImpTree.Tree

/-!
# Trees without annotations

What is left of a tree when its annotation slots are emptied, and the trees that have nothing to
lose by it.

* `Expr.erase`, `Stmt.erase`, `Program.erase` — the same tree with empty slots.
* `Expr.IsFresh`, `Stmt.IsFresh`, `Program.IsFresh` — no slot holds anything yet.
-/

namespace ImpTree

/-! ## Expressions -/

mutual

/-- The same expression with empty slots. -/
def Expr.erase : Expr → Expr
  | .literal value span _ => .literal value span none
  | .group inner span _ => .group inner.erase span none
  | .binary op left right span _ => .binary op left.erase right.erase span none
  | .var name _ span _ => .var name none span none
  | .element name offset _ span _ => .element name offset.erase none span none
  | .call name arguments _ span _ => .call name (Expr.eraseAll arguments) none span none
  | .list elements span _ => .list (Expr.eraseAll elements) span none

/-- The same expressions with empty slots. -/
def Expr.eraseAll : List Expr → List Expr
  | [] => []
  | e :: rest => e.erase :: Expr.eraseAll rest

end

/-- No slot of the expression holds anything. -/
def Expr.IsFresh (e : Expr) : Prop := e.erase = e

/-- No slot of the expressions holds anything. -/
def Expr.AllFresh (es : List Expr) : Prop := Expr.eraseAll es = es

@[simp]
theorem Expr.allFresh_nil : Expr.AllFresh [] := rfl

@[simp]
theorem Expr.allFresh_cons {e : Expr} {rest : List Expr} :
    Expr.AllFresh (e :: rest) ↔ e.IsFresh ∧ Expr.AllFresh rest := by
  simp [Expr.AllFresh, Expr.IsFresh, Expr.eraseAll]

/-- A fresh expression has fresh parts and empty slots. -/
theorem Expr.isFresh_iff {e : Expr} :
    e.IsFresh ↔
      match e with
      | .literal _ _ ty => ty = none
      | .group inner _ ty => inner.IsFresh ∧ ty = none
      | .binary _ left right _ ty => left.IsFresh ∧ right.IsFresh ∧ ty = none
      | .var _ binding _ ty => binding = none ∧ ty = none
      | .element _ offset binding _ ty => offset.IsFresh ∧ binding = none ∧ ty = none
      | .call _ arguments binding _ ty => Expr.AllFresh arguments ∧ binding = none ∧ ty = none
      | .list elements _ ty => Expr.AllFresh elements ∧ ty = none := by
  cases e <;> simp [Expr.IsFresh, Expr.AllFresh, Expr.erase, eq_comm]

/-! ## Statements -/

mutual

/-- The same statement with empty slots. -/
def Stmt.erase : Stmt → Stmt
  | .expression expr span => .expression expr.erase span
  | .declaration name typeName value _ span =>
    .declaration name typeName (value.map Expr.erase) none span
  | .assignment receiver value span => .assignment receiver.erase value.erase span
  | .ifElse condition thenBody elseBody span =>
    .ifElse condition.erase (Stmt.eraseBlock thenBody) (Stmt.eraseBlock elseBody) span
  | .switch condition cases span => .switch condition.erase (Stmt.eraseCases cases) span
  | .whileLoop condition body span => .whileLoop condition.erase (Stmt.eraseBlock body) span
  | .ret value span => .ret value.erase span

/-- The same statements with empty slots. -/
def Stmt.eraseBlock : List Stmt → List Stmt
  | [] => []
  | stmt :: rest => stmt.erase :: Stmt.eraseBlock rest

/-- The same arm with empty slots. -/
def Case.erase : Case → Case
  | .mk value body span => .mk (value.map Expr.erase) (Stmt.eraseBlock body) span

/-- The same arms with empty slots. -/
def Stmt.eraseCases : List Case → List Case
  | [] => []
  | arm :: rest => arm.erase :: Stmt.eraseCases rest

end

/-- No slot of the statement holds anything. -/
def Stmt.IsFresh (stmt : Stmt) : Prop := stmt.erase = stmt

/-- No slot of the statements holds anything. -/
def Stmt.BlockFresh (block : List Stmt) : Prop := Stmt.eraseBlock block = block

/-- No slot of the arms holds anything. -/
def Stmt.CasesFresh (cases : List Case) : Prop := Stmt.eraseCases cases = cases

/-- No slot of an optional expression holds anything. -/
def Expr.OptionFresh (value : Option Expr) : Prop := ∀ e, value = some e → e.IsFresh

theorem Expr.optionFresh_iff {value : Option Expr} :
    Expr.OptionFresh value ↔ value.map Expr.erase = value := by
  cases value <;> simp [Expr.OptionFresh, Expr.IsFresh]

@[simp]
theorem Stmt.blockFresh_nil : Stmt.BlockFresh [] := rfl

@[simp]
theorem Stmt.blockFresh_cons {stmt : Stmt} {rest : List Stmt} :
    Stmt.BlockFresh (stmt :: rest) ↔ stmt.IsFresh ∧ Stmt.BlockFresh rest := by
  simp [Stmt.BlockFresh, Stmt.IsFresh, Stmt.eraseBlock]

@[simp]
theorem Stmt.casesFresh_nil : Stmt.CasesFresh [] := rfl

@[simp]
theorem Stmt.casesFresh_cons {value : Option Expr} {body : List Stmt} {span : Span}
    {rest : List Case} :
    Stmt.CasesFresh (.mk value body span :: rest) ↔
      (Expr.OptionFresh value ∧ Stmt.BlockFresh body) ∧ Stmt.CasesFresh rest := by
  simp [Stmt.CasesFresh, Stmt.BlockFresh, Expr.optionFresh_iff, Stmt.eraseCases, Case.erase]

/-- A fresh statement has fresh parts and empty slots. -/
theorem Stmt.isFresh_iff {stmt : Stmt} :
    stmt.IsFresh ↔
      match stmt with
      | .expression expr _ => expr.IsFresh
      | .declaration _ _ value binding _ => Expr.OptionFresh value ∧ binding = none
      | .assignment receiver value _ => receiver.IsFresh ∧ value.IsFresh
      | .ifElse condition thenBody elseBody _ =>
        condition.IsFresh ∧ Stmt.BlockFresh thenBody ∧ Stmt.BlockFresh elseBody
      | .switch condition cases _ => condition.IsFresh ∧ Stmt.CasesFresh cases
      | .whileLoop condition body _ => condition.IsFresh ∧ Stmt.BlockFresh body
      | .ret value _ => value.IsFresh := by
  cases stmt <;>
    simp [Stmt.IsFresh, Stmt.BlockFresh, Stmt.CasesFresh, Expr.IsFresh, Expr.optionFresh_iff,
      Stmt.erase, eq_comm]

/-! ## Programs -/

/-- The same global with empty slots. -/
def Global.erase (g : Global) : Global :=
  { g with value := g.value.map Expr.erase, binding := none }

/-- The same function with empty slots. -/
def FunctionDef.erase (f : FunctionDef) : FunctionDef :=
  { f with body := Stmt.eraseBlock f.body, binding := none }

/-- The same program with empty slots. -/
def Program.erase (p : Program) : Program :=
  ⟨p.globals.map Global.erase, p.functions.map FunctionDef.erase⟩

/-- No slot of the program holds anything: nothing has been annotated yet. -/
def Program.IsFresh (p : Program) : Prop := p.erase = p

/-- The globals of a fresh program have fresh initial values and empty slots. -/
theorem Program.IsFresh.global {p : Program} (h : p.IsFresh) {g : Global} (hg : g ∈ p.globals) :
    Expr.OptionFresh g.value ∧ g.binding = none := by
  have hmap : p.globals.map Global.erase = p.globals.map id := by
    simpa [Program.IsFresh, Program.erase] using congrArg Program.globals h
  have herase : g.erase = g := List.map_inj_left.1 hmap g hg
  have hvalue := congrArg Global.value herase
  have hbinding := congrArg Global.binding herase
  exact ⟨Expr.optionFresh_iff.2 hvalue, hbinding.symm⟩

/-- The functions of a fresh program have fresh bodies and empty slots. -/
theorem Program.IsFresh.function {p : Program} (h : p.IsFresh) {f : FunctionDef}
    (hf : f ∈ p.functions) : Stmt.BlockFresh f.body ∧ f.binding = none := by
  have hmap : p.functions.map FunctionDef.erase = p.functions.map id := by
    simpa [Program.IsFresh, Program.erase] using congrArg Program.functions h
  have herase : f.erase = f := List.map_inj_left.1 hmap f hf
  have hbody := congrArg FunctionDef.body herase
  have hbinding := congrArg FunctionDef.binding herase
  exact ⟨hbody, hbinding.symm⟩

end ImpTree
