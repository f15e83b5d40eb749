import ImpTree.Analysis
import ImpTree.Proofs.Tree.Erase

/-!
# A check changes annotations only

A check fills slots of the tree that it walks over and leaves the rest of the tree as it is, whether
it passes or fails: with all slots emptied, the tree is the same before and after.

* `Checked.node_andThen` — what two steps of a check leave of a node.
* `Expr.erase_check`, `Stmt.erase_check` — expressions and statements.
* `Analyzer.erase_analyze` — **whole programs**, by any checker.
* `Expr.span_check`, `Expr.isBinary_check`, … — what a check leaves of an expression's form.
-/

namespace ImpTree

/-! ## Steps of a check -/

namespace Checked

variable {ν μ ρ σ α β : Type}

/-- What is left of the node by a failure of the first step, and by the second step, is left by
both. -/
theorem node_andThen (f : μ → ρ) {c : Checked ν α} {build : ν → μ}
    {next : ν → α → Checked μ β} {r : ρ} (hfail : f (build c.node) = r)
    (hnext : ∀ a, f (next c.node a).node = r) : f (c.andThen build next).node = r := by
  rcases c.eq_pass_or_eq_fail with ⟨a, hc⟩ | ⟨e, hc⟩
  · rw [hc, andThen_pass]
    exact hnext a
  · rw [hc, andThen_fail]
    exact hfail

/-- What a check leaves of every node is left of a list of nodes. -/
theorem map_each {f : ν → μ} {check : ν → σ → Checked ν σ}
    (hcheck : ∀ node state, f (check node state).node = f node) :
    ∀ (nodes : List ν) (state : σ), (each check nodes state).node.map f = nodes.map f := by
  intro nodes
  induction nodes with
  | nil => exact fun _ => rfl
  | cons node rest ih =>
    intro state
    rw [each]
    refine node_andThen (List.map f) ?_ fun state => ?_
    · rw [List.map_cons, List.map_cons, hcheck]
    · rw [inside, List.map_cons, List.map_cons, hcheck, ih]

end Checked

/-! ## Expressions -/

namespace Expr

/-! ### The form of an expression without annotations -/

@[simp]
theorem span_erase (e : Expr) : e.erase.span = e.span := by cases e <;> rfl

@[simp]
theorem isBinary_erase (e : Expr) : e.erase.isBinary = e.isBinary := by cases e <;> rfl

@[simp]
theorem isCall_erase (e : Expr) : e.erase.isCall = e.isCall := by cases e <;> rfl

@[simp]
theorem isPlace_erase (e : Expr) : e.erase.isPlace = e.isPlace := by cases e <;> rfl

@[simp]
theorem length_eraseAll : ∀ es : List Expr, (eraseAll es).length = es.length
  | [] => rfl
  | _ :: rest => congrArg Nat.succ (length_eraseAll rest)

/-! ### What a check leaves -/

variable [Filling] {scope : Scope}

/-- Only the slot depends on the verdict. -/
theorem erase_settle {verdict : Except Error Ty} {slot : Slot Ty} {build : Slot Ty → Expr}
    {e : Expr} (h : ∀ slot, (build slot).erase = e) :
    (settle verdict slot build).node.erase = e := by
  cases verdict with
  | ok ty => exact h _
  | error _ => exact h _

mutual

/-- A check of an expression changes annotations only. -/
theorem erase_check : ∀ e : Expr, (e.check scope).node.erase = e.erase
  | .literal value span slot => erase_settle fun _ => rfl
  | .group inner span slot => by
    rw [check]
    split
    · refine Checked.node_andThen erase ?_ fun ty => erase_settle fun _ => ?_
      all_goals rw [erase, erase, erase_check inner]
    · rfl
  | .binary op left right span slot => by
    rw [check]
    refine Checked.node_andThen erase ?_ fun leftTy => ?_
    · rw [erase, erase, erase_check left]
    · refine Checked.node_andThen erase ?_ fun rightTy =>
        erase_settle fun _ => ?_
      all_goals rw [erase, erase, erase_check left, erase_check right]
  | .var name binding span slot => by
    rw [check]
    split
    · exact erase_settle fun _ => rfl
    · rfl
  | .element name offset binding span slot => by
    rw [check]
    refine Checked.node_andThen erase ?_ fun offsetTy => ?_
    · rw [erase, erase, erase_check offset]
    · split
      · exact erase_settle fun _ => by rw [erase, erase, erase_check offset]
      · exact congrArg (Expr.element name · none span none) (erase_check offset)
  | .call name arguments binding span slot => by
    rw [check]
    split
    · refine Checked.node_andThen erase ?_ fun _ => erase_settle fun _ => ?_
      all_goals rw [erase, erase, eraseAll_checkArguments arguments]
    · rfl
  | .list elements span slot => by
    rw [check]
    refine Checked.node_andThen erase ?_ fun ty => ?_
    · rw [erase, erase, eraseAll_checkElements elements]
    · cases ty with
      | some ty => exact erase_settle fun _ => by rw [erase, erase, eraseAll_checkElements elements]
      | none => exact congrArg (Expr.list · span none) (eraseAll_checkElements elements)

/-- So does a check of arguments. -/
theorem eraseAll_checkArguments : ∀ (es : List Expr) {parameters : List Ty},
    eraseAll (checkArguments scope es parameters).node = eraseAll es
  | [], _ => by
    rw [checkArguments.eq_def]
    rfl
  | e :: rest, [] => rfl
  | e :: rest, parameter :: parameters => by
    rw [checkArguments]
    refine Checked.node_andThen eraseAll ?_ fun ty => ?_
    · rw [eraseAll, eraseAll, erase_check e]
    · split
      · rw [Checked.inside, eraseAll, eraseAll, erase_check e, eraseAll_checkArguments rest]
      · exact congrArg (· :: eraseAll rest) (erase_check e)

/-- So does a check of the elements of a list. -/
theorem eraseAll_checkElements : ∀ (es : List Expr) {expected : Option Ty},
    eraseAll (checkElements scope expected es).node = eraseAll es
  | [], _ => rfl
  | e :: rest, expected => by
    rw [checkElements]
    refine Checked.node_andThen eraseAll ?_ fun ty => ?_
    · rw [eraseAll, eraseAll, erase_check e]
    · split
      · rw [Checked.inside, eraseAll, eraseAll, erase_check e, eraseAll_checkElements rest]
      · exact congrArg (· :: eraseAll rest) (erase_check e)

end

/-! ### The form of an expression after a check -/

/-- A checked expression stands where it stood. -/
@[simp]
theorem span_check (e : Expr) : (e.check scope).node.span = e.span := by
  rw [← span_erase, erase_check, span_erase]

@[simp]
theorem isBinary_check (e : Expr) : (e.check scope).node.isBinary = e.isBinary := by
  rw [← isBinary_erase, erase_check, isBinary_erase]

@[simp]
theorem isCall_check (e : Expr) : (e.check scope).node.isCall = e.isCall := by
  rw [← isCall_erase, erase_check, isCall_erase]

@[simp]
theorem isPlace_check (e : Expr) : (e.check scope).node.isPlace = e.isPlace := by
  rw [← isPlace_erase, erase_check, isPlace_erase]

@[simp]
theorem length_checkArguments (es : List Expr) {parameters : List Ty} :
    (checkArguments scope es parameters).node.length = es.length := by
  rw [← length_eraseAll, eraseAll_checkArguments, length_eraseAll]

end Expr

/-! ## Statements -/

section Statements

variable [Filling] {types : TypeNames} {scope : Scope} {expected : Option Ty}

/-- The check of a declaration changes annotations of the initial value only. -/
theorem map_erase_declarationTy {name : String} {typeName : Option String} {span : Span}
    (value : Option Expr) :
    (declarationTy types scope name typeName value span).node.map Expr.erase =
      value.map Expr.erase := by
  rw [declarationTy]
  split
  · rfl
  · cases value with
    | none => cases ‹Option Ty› <;> rfl
    | some expr =>
      have herase : some (expr.check scope).node.erase = some expr.erase :=
        congrArg some (Expr.erase_check expr)
      refine Checked.node_andThen (Option.map Expr.erase) herase fun ty => ?_
      split <;> exact herase

/-- There is an initial value after the check of a declaration if there was one before. -/
theorem isNone_declarationTy {name : String} {typeName : Option String} {span : Span}
    {value : Option Expr} :
    (declarationTy types scope name typeName value span).node.isNone = value.isNone := by
  rw [← Option.isNone_map, map_erase_declarationTy, Option.isNone_map]

/-- The check of a condition changes annotations of the condition only. -/
theorem Expr.erase_checkCondition (condition : Expr) :
    (condition.checkCondition scope).node.erase = condition.erase :=
  Checked.node_andThen Expr.erase (Expr.erase_check condition) fun _ => Expr.erase_check condition

namespace Stmt

mutual

/-- A check of a statement changes annotations only. -/
theorem erase_check : ∀ (stmt : Stmt) {scope : Scope},
    (stmt.check types expected scope).node.erase = stmt.erase
  | .expression expr span, scope => by
    rw [check]
    split
    · refine Checked.node_andThen erase ?_ fun ty => ?_
      all_goals exact congrArg (Stmt.expression · span) (Expr.erase_check expr)
    · rfl
  | .declaration name typeName value binding span, scope => by
    rw [check]
    have herase : (declarationTy types scope name typeName value span).node.map Expr.erase =
        value.map Expr.erase := map_erase_declarationTy value
    refine Checked.node_andThen erase ?_ fun ty => ?_
    · rw [erase, erase, herase]
    · split
      · exact congrArg (Stmt.declaration name typeName · none span) herase
      · exact congrArg (Stmt.declaration name typeName · none span) herase
  | .assignment receiver value span, scope => by
    rw [check]
    split
    · refine Checked.node_andThen erase ?_ fun target => ?_
      · rw [erase, erase, Expr.erase_check]
      · refine Checked.node_andThen erase ?_ fun source => ?_
        all_goals simp only [Checked.done, erase, Expr.erase_check]
    · rfl
  | .ifElse condition thenBody elseBody span, scope => by
    rw [check]
    refine Checked.node_andThen erase ?_ fun _ => ?_
    · rw [erase, erase, Expr.erase_checkCondition]
    · split
      · exact congrArg (Stmt.ifElse · _ _ span) (Expr.erase_checkCondition condition)
      · refine Checked.node_andThen erase ?_ fun _ => ?_
        · rw [erase, erase, Expr.erase_checkCondition, eraseBlock_checkBlock thenBody]
        · refine Checked.node_andThen erase ?_ fun _ => ?_
          all_goals simp only [Checked.pass, erase, Expr.erase_checkCondition,
            eraseBlock_checkBlock thenBody, eraseBlock_checkBlock elseBody]
  | .switch condition cases span, scope => by
    rw [check]
    refine Checked.node_andThen erase ?_ fun ty => ?_
    · rw [erase, erase, Expr.erase_check]
    · split
      · exact congrArg (Stmt.switch · _ span) (Expr.erase_check condition)
      · refine Checked.node_andThen erase ?_ fun _ => ?_
        all_goals simp only [Checked.pass, erase, Expr.erase_check, eraseCases_checkCases cases]
  | .whileLoop condition body span, scope => by
    rw [check]
    refine Checked.node_andThen erase ?_ fun _ => ?_
    · rw [erase, erase, Expr.erase_checkCondition]
    · refine Checked.node_andThen erase ?_ fun _ => ?_
      all_goals simp only [Checked.pass, erase, Expr.erase_checkCondition,
        eraseBlock_checkBlock body]
  | .ret value span, scope => by
    rw [check]
    refine Checked.node_andThen erase ?_ fun ty => ?_
    all_goals exact congrArg (Stmt.ret · span) (Expr.erase_check value)

/-- So does a check of a block. -/
theorem eraseBlock_checkBlock : ∀ (block : List Stmt) {scope : Scope},
    eraseBlock (checkBlock types expected block scope).node = eraseBlock block
  | [], _ => rfl
  | stmt :: rest, scope => by
    rw [checkBlock]
    refine Checked.node_andThen eraseBlock ?_ fun _ => ?_
    · rw [eraseBlock, eraseBlock, erase_check stmt]
    · rw [Checked.inside, eraseBlock, eraseBlock, erase_check stmt, eraseBlock_checkBlock rest]

/-- So does a check of the arms of a switch. -/
theorem eraseCases_checkCases : ∀ (cases : List Case) {scope : Scope} {ty : Ty},
    eraseCases (checkCases types expected scope ty cases).node = eraseCases cases
  | [], _, _ => rfl
  | arm :: rest, scope, ty => by
    rw [checkCases]
    refine Checked.node_andThen eraseCases ?_ fun _ => ?_
    · rw [eraseCases, eraseCases, erase_caseCheck arm]
    · rw [Checked.inside, eraseCases, eraseCases, erase_caseCheck arm, eraseCases_checkCases rest]

/-- So does a check of one arm. -/
theorem erase_caseCheck : ∀ (arm : Case) {scope : Scope} {ty : Ty} {isLast : Bool},
    (arm.check types expected scope ty isLast).node.erase = arm.erase
  | .mk (some value) body span, scope, ty, isLast => by
    rw [Case.check]
    split
    · rfl
    · refine Checked.node_andThen Case.erase ?_ fun valueTy => ?_
      · simp only [Case.erase, Option.map_some, Expr.erase_check]
      · split
        · refine Checked.node_andThen Case.erase ?_ fun _ => ?_
          all_goals simp only [Checked.pass, Case.erase, Option.map_some, Expr.erase_check,
            eraseBlock_checkBlock body]
        · exact congrArg (Case.mk · _ span) (congrArg some (Expr.erase_check value))
  | .mk none body span, scope, ty, isLast => by
    rw [Case.check]
    split
    · refine Checked.node_andThen Case.erase ?_ fun _ => ?_
      all_goals exact congrArg (Case.mk none · span) (eraseBlock_checkBlock body)
    · rfl

end

end Stmt

end Statements

/-! ## Programs -/

section Programs

variable [Filling] {types : TypeNames}

/-- A check of a global changes annotations only. -/
theorem Global.erase_check (g : Global) (scope : Scope) :
    (g.check types scope).node.erase = g.erase := by
  rw [Global.check]
  split
  · rfl
  · have herase : (declarationTy types scope g.name g.typeName g.value g.span).node.map
        Expr.erase = g.value.map Expr.erase := map_erase_declarationTy g.value
    refine Checked.node_andThen Global.erase ?_ fun ty => ?_
    · rw [Global.erase, Global.erase, herase]
    · dsimp only
      split
      · simp only [Checked.pass, Global.erase, herase]
      · simp only [Checked.fail, Global.erase, herase]

/-- A declaration of a function changes its slot only. -/
theorem FunctionDef.erase_declare (f : FunctionDef) (index : Nat) (scope : Scope) :
    (f.declare types index scope).node.erase = f.erase := by
  rw [FunctionDef.declare]
  split <;> rfl

/-- So do declarations of functions. -/
theorem FunctionDef.map_erase_declareAll : ∀ (fs : List FunctionDef) {index : Nat}
    {scope : Scope},
    (FunctionDef.declareAll types index fs scope).node.map FunctionDef.erase =
      fs.map FunctionDef.erase
  | [], _, _ => rfl
  | f :: rest, index, scope => by
    rw [FunctionDef.declareAll]
    refine Checked.node_andThen (List.map FunctionDef.erase) ?_ fun _ => ?_
    · rw [List.map_cons, List.map_cons, FunctionDef.erase_declare]
    · refine Checked.node_andThen (List.map FunctionDef.erase) ?_ fun _ => ?_
      all_goals simp only [Checked.pass, List.map_cons, FunctionDef.erase_declare,
        map_erase_declareAll rest]

/-- What comes before the bodies changes annotations only. -/
theorem Program.erase_declare (p : Program) : (p.declare types).node.erase = p.erase := by
  rw [Program.declare]
  split
  · rfl
  · have hglobals : ∀ scope,
        (Checked.each (Global.check types) p.globals scope).node.map Global.erase =
          p.globals.map Global.erase := Checked.map_each Global.erase_check p.globals
    refine Checked.node_andThen Program.erase ?_ fun scope => ?_
    · rw [Program.erase, Program.erase, hglobals]
    · rw [Checked.inside, Program.erase, Program.erase, hglobals, FunctionDef.map_erase_declareAll]

namespace Analyzer

/-- A check of a body changes annotations only. -/
theorem erase_checkFunction (a : Analyzer) (scope : Scope) (f : FunctionDef)
    (binding : FunctionBinding) : (a.checkFunction scope f binding).1.node.erase = f.erase := by
  rw [checkFunction]
  split
  · refine Checked.node_andThen FunctionDef.erase ?_ fun _ => ?_
    all_goals simp only [Checked.pass, FunctionDef.erase, Stmt.eraseBlock_checkBlock]
  · rfl

/-- So do checks of bodies. -/
theorem map_erase_checkFunctions : ∀ (fs : List FunctionDef) (bindings : List FunctionBinding)
    (a : Analyzer) (scope : Scope),
    (a.checkFunctions scope fs bindings).1.node.map FunctionDef.erase = fs.map FunctionDef.erase
  | [], bindings, a, scope => by
    rw [checkFunctions.eq_def]
    rfl
  | f :: rest, [], a, scope => rfl
  | f :: rest, binding :: bindings, a, scope => by
    rw [checkFunctions_cons]
    refine Checked.node_andThen (List.map FunctionDef.erase) ?_ fun _ => ?_
    · rw [List.map_cons, List.map_cons, erase_checkFunction]
    · rw [Checked.inside, List.map_cons, List.map_cons, erase_checkFunction,
        map_erase_checkFunctions rest]

/-- **A check changes annotations only**: whatever the checker has checked before, and whether the
program passes or fails, the program without annotations is the same before and after. -/
theorem erase_analyze (a : Analyzer) (p : Program) : (a.analyze p).1.node.erase = p.erase := by
  rw [analyze_eq]
  refine Checked.node_andThen Program.erase (Program.erase_declare p) fun declared => ?_
  simp only [Checked.inside, Program.erase, map_erase_checkFunctions]
  exact Program.erase_declare p

end Analyzer

end Programs

end ImpTree
