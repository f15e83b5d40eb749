import ImpTree.Proofs.Tree.Parts
import ImpTree.Analysis.Expr
import ImpTree.Tree.Notes
import Mathlib.Data.List.Forall2

/-!
# Places and what is in view there

Every expression of a program stands at a place, from where some declarations and functions are in
view.  What the annotations of a program must say is said of the annotated tree alone, place by
place: the slots of a node against the slots of its parts and of the declarations in view.

* `View`, `Place` — what is in view, and an expression with it.
* `Expr.places`, `Stmt.places`, `Program.places` — the places of a node.
* `Program.exprs_places` — every expression of a program stands at one of its places.
* `Place.Justified` — the annotations of an expression are what its place asks for.
* `Note.IsFull` — all slots of a node hold something.
-/

namespace ImpTree

/-! ## Views -/

/-- What is in view at a point of a program. -/
structure View where
  /-- The names of variables with the slots for their bindings, the innermost and latest declaration
  first. -/
  slots : List (String × Slot VariableBinding)
  /-- The functions of the program that can be called. -/
  functions : List FunctionDef

namespace View

/-- The view after a declaration. -/
def withVariable (view : View) (name : String) (binding : Slot VariableBinding) : View :=
  { view with slots := (name, binding) :: view.slots }

/-- The slot for the binding of the innermost variable of a name, if there is such a variable. -/
def slot? (view : View) (name : String) : Option (Slot VariableBinding) :=
  view.slots.lookup name

/-- The functions of the program with a name and a number of parameters. -/
def callees (view : View) (name : String) (arity : Nat) : List FunctionDef :=
  view.functions.filter fun f => f.name == name && f.parameters.length == arity

/-- A call by a name and with a number of arguments means a function with the binding: a built-in
one, or the only function of the program, whose slot holds the binding. -/
inductive Calls (view : View) (name : String) (arity : Nat) : FunctionBinding → Prop where
  /-- A built-in function. -/
  | builtin {b : Builtin} (hname : b.binding.name = name) (harity : b.binding.arity = arity)
      (hnone : view.callees name arity = []) : Calls view name arity b.binding
  /-- A function of the program. -/
  | declared {f : FunctionDef} {binding : FunctionBinding} (honly : view.callees name arity = [f])
      (hslot : f.binding = some binding) : Calls view name arity binding

/-- The view after the parameters of a function, whose bindings follow from the types that the
function's own slot holds. -/
def withParameters (view : View) : List String → List Ty → View
  | name :: names, ty :: tys =>
    (view.withVariable name (some ⟨name, ty, true⟩)).withParameters names tys
  | name :: names, [] => (view.withVariable name none).withParameters names []
  | [], _ => view

end View

/-! ## Places -/

/-- An expression and what is in view where it stands. -/
structure Place where
  /-- What is in view. -/
  view : View
  /-- The expression. -/
  expr : Expr

/-- The places of an expression and its parts: they have one view. -/
def Expr.places (view : View) (e : Expr) : List Place := e.parts.map (Place.mk view)

/-- The places of an expression that may be missing. -/
def Expr.optionPlaces (view : View) (value : Option Expr) : List Place :=
  (Expr.optionParts value).map (Place.mk view)

/-- What is in view after a statement: a declaration comes into view, and what is declared in the
blocks of a statement does not. -/
def Stmt.viewAfter (view : View) : Stmt → View
  | .declaration name _ _ binding _ => view.withVariable name binding
  | .expression .. | .assignment .. | .ifElse .. | .switch .. | .whileLoop .. | .ret .. => view

mutual

/-- The places of the expressions inside a statement. -/
def Stmt.places (view : View) : Stmt → List Place
  | .expression expr _ => expr.places view
  | .declaration _ _ value _ _ => Expr.optionPlaces view value
  | .assignment receiver value _ => receiver.places view ++ value.places view
  | .ifElse condition thenBody elseBody _ =>
    condition.places view ++ (Stmt.blockPlaces view thenBody ++ Stmt.blockPlaces view elseBody)
  | .switch condition cases _ => condition.places view ++ Stmt.casesPlaces view cases
  | .whileLoop condition body _ => condition.places view ++ Stmt.blockPlaces view body
  | .ret value _ => value.places view

/-- The places of the expressions inside statements, each with the declarations before it in
view. -/
def Stmt.blockPlaces (view : View) : List Stmt → List Place
  | [] => []
  | stmt :: rest => Stmt.places view stmt ++ Stmt.blockPlaces (stmt.viewAfter view) rest

/-- The places of the expressions inside the arms of a switch. -/
def Stmt.casesPlaces (view : View) : List Case → List Place
  | [] => []
  | .mk value body _ :: rest =>
    Expr.optionPlaces view value ++ (Stmt.blockPlaces view body ++ Stmt.casesPlaces view rest)

end

/-- The places of the expressions inside globals, each with the globals before it in view. -/
def Global.allPlaces (view : View) : List Global → List Place
  | [] => []
  | g :: rest =>
    Expr.optionPlaces view g.value ++ Global.allPlaces (view.withVariable g.name g.binding) rest

/-- What is in view after globals. -/
def Global.viewAfterAll (view : View) : List Global → View
  | [] => view
  | g :: rest => Global.viewAfterAll (view.withVariable g.name g.binding) rest

/-- The places of the expressions inside a function. -/
def FunctionDef.places (view : View) (f : FunctionDef) : List Place :=
  let tys := (f.binding.map FunctionBinding.parameterTypes).getD []
  Stmt.blockPlaces (view.withParameters f.parameters tys) f.body

/-- The places of the expressions of a program.  From a global only the globals before it are in
view; from the body of a function all globals and functions are. -/
def Program.places (p : Program) : List Place :=
  let globals := Global.viewAfterAll ⟨[], []⟩ p.globals
  Global.allPlaces ⟨[], []⟩ p.globals ++
    p.functions.flatMap (FunctionDef.places { globals with functions := p.functions })

/-! ### Every expression has its place -/

theorem Expr.exprs_places (view : View) (e : Expr) : (e.places view).map Place.expr = e.parts := by
  rw [places, List.map_map]
  exact List.map_id _

theorem Expr.exprs_optionPlaces (view : View) (value : Option Expr) :
    (optionPlaces view value).map Place.expr = optionParts value := by
  rw [optionPlaces, List.map_map]
  exact List.map_id _

namespace Stmt

mutual

/-- Every expression inside a statement stands at one of its places. -/
theorem exprs_places : ∀ (stmt : Stmt) {view : View},
    (stmt.places view).map Place.expr = stmt.exprs
  | .expression expr span, _ => by rw [places, exprs, Expr.exprs_places]
  | .declaration name typeName value binding span, _ => by
    rw [places, exprs, Expr.exprs_optionPlaces]
  | .assignment receiver value span, _ => by
    rw [places, exprs, List.map_append, Expr.exprs_places, Expr.exprs_places]
  | .ifElse condition thenBody elseBody span, _ => by
    rw [places, exprs, List.map_append, List.map_append, Expr.exprs_places,
      blockExprs_blockPlaces thenBody, blockExprs_blockPlaces elseBody]
  | .switch condition cases span, _ => by
    rw [places, exprs, List.map_append, Expr.exprs_places, casesExprs_casesPlaces cases]
  | .whileLoop condition body span, _ => by
    rw [places, exprs, List.map_append, Expr.exprs_places, blockExprs_blockPlaces body]
  | .ret value span, _ => by rw [places, exprs, Expr.exprs_places]

/-- So does every expression inside a block. -/
theorem blockExprs_blockPlaces : ∀ (block : List Stmt) {view : View},
    (blockPlaces view block).map Place.expr = blockExprs block
  | [], _ => rfl
  | stmt :: rest, _ => by
    rw [blockPlaces, blockExprs, List.map_append, exprs_places stmt, blockExprs_blockPlaces rest]

/-- So does every expression inside the arms of a switch. -/
theorem casesExprs_casesPlaces : ∀ (cases : List Case) {view : View},
    (casesPlaces view cases).map Place.expr = casesExprs cases
  | [], _ => rfl
  | .mk value body span :: rest, _ => by
    rw [casesPlaces, casesExprs, List.map_append, List.map_append, Expr.exprs_optionPlaces,
      blockExprs_blockPlaces body, casesExprs_casesPlaces rest]

end

end Stmt

/-- So does every expression inside globals. -/
theorem Global.exprs_allPlaces : ∀ (gs : List Global) {view : View},
    (Global.allPlaces view gs).map Place.expr = gs.flatMap fun g => Expr.optionParts g.value
  | [], _ => rfl
  | g :: rest, _ => by
    rw [allPlaces, List.map_append, Expr.exprs_optionPlaces, exprs_allPlaces rest,
      List.flatMap_cons]

/-- **Every expression of a program stands at one of its places.** -/
theorem Program.exprs_places (p : Program) : p.places.map Place.expr = p.exprs := by
  have hfunctions : ∀ (view : View) (fs : List FunctionDef),
      (fs.flatMap (FunctionDef.places view)).map Place.expr =
        fs.flatMap fun f => Stmt.blockExprs f.body := by
    intro view fs
    rw [List.map_flatMap]
    exact congrArg (fs.flatMap ·) (funext fun f => Stmt.blockExprs_blockPlaces f.body)
  rw [places, exprs, List.map_append, Global.exprs_allPlaces, hfunctions]

/-! ## What the annotations must say -/

/-- The type of a constant, in range or not. -/
def Literal.kind : Literal → Ty
  | nil => .nil
  | boolean _ => .boolean
  | integer _ => .integer
  | decimal _ => .decimal
  | character _ => .character
  | string _ => .string

/-- The annotations of the expression are what its place asks for.

A constant has its own type, parentheses have the type inside them, and an operator has the type
that its rule gives for the types of its operands.  A variable has the type of its binding, which is
the one at the innermost declaration in view; an element has the type of the elements.  A call has
the result type of its binding, which is the one of the function that is called and whose parameters
accept the types of the arguments.  A list has the type of lists of what all its elements are. -/
def Place.Justified (place : Place) : Prop :=
  match place.expr with
  | .literal value _ ty => ty = some value.kind
  | .group inner _ ty => ∃ t, inner.ty = some t ∧ ty = some t
  | .binary op left right span ty =>
    ∃ l r t, left.ty = some l ∧ right.ty = some r ∧ op.resultTy l r span = .ok t ∧ ty = some t
  | .var name binding _ ty =>
    ∃ b, place.view.slot? name = some (some b) ∧ binding = some b ∧ ty = some b.ty
  | .element name offset binding _ ty =>
    ∃ b t, place.view.slot? name = some (some b) ∧ binding = some b ∧ b.ty = .list t ∧
      ty = some t ∧ offset.ty = some .integer
  | .call name arguments binding _ ty =>
    ∃ (b : FunctionBinding) (tys : List Ty),
      place.view.Calls name arguments.length b ∧ binding = some b ∧
      arguments.map Expr.ty = tys.map some ∧
      List.Forall₂ (fun parameter t => parameter.accepts t = true) b.parameterTypes tys ∧
      ty = some b.returnType
  | .list elements _ ty =>
    elements ≠ [] ∧ ∃ t, (∀ e ∈ elements, e.ty = some t) ∧ ty = some (.list t)

/-- All slots of the node hold something. -/
def Note.IsFull : Note → Prop
  | global binding | declaration binding => binding.isSome
  | function binding => binding.isSome
  | literal ty | group ty | binary ty _ | list ty => ty.isSome
  | access ty binding => ty.isSome ∧ binding.isSome
  | call ty binding => ty.isSome ∧ binding.isSome

end ImpTree
