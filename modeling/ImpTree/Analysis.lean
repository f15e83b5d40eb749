import ImpTree.Analysis.Stmt

/-!
# Checking programs

A program is checked in four steps: there must be a `main` to start from; the globals are checked in
order; every function is declared, so that functions may call each other in any order; then the
bodies are checked.  The first error ends the check.

* `Program.entryPoint` — the requirement on `main`.
* `Global.check`, `FunctionDef.declare` — the parts of a program, but for the bodies of functions.
* `Program.declare` — the first three steps.
* `Analyzer` — a checker that serves for one program after another.
* `Analyzer.analyze`, `Program.analyze` — the whole check, by a checker or by a new one.
-/

namespace ImpTree

variable [Filling]

/-! ## The entry point -/

/-- The type of a function's result; a function that names none has the missing value. -/
def FunctionDef.returnTy (f : FunctionDef) (types : TypeNames) : Except Error Ty :=
  match f.returnTypeName with
  | some name => types.resolve name f.span
  | none => .ok .nil

/-- Is the function a `main` that takes no arguments? -/
def FunctionDef.isMain (f : FunctionDef) : Bool := f.name == "main" && f.parameters.isEmpty

/-- The reason for which a program without `main` is refused. -/
def missingMain : String := "no zero-argument function `main`"

/-- The first `main` without parameters must exist and must return an integer. -/
def Program.entryPoint (p : Program) (types : TypeNames) : Except Error Unit :=
  match p.functions.find? FunctionDef.isMain with
  | none => .error (.entryPoint missingMain)
  | some main =>
    match main.returnTy types with
    | .ok .integer => .ok ()
    | .ok ty => .error (.entryPoint s!"`main` must return Integer, found {ty.text}")
    | .error _ =>
      let name := main.returnTypeName.getD ""
      .error (.entryPoint s!"`main` must return Integer, found unknown type {name}")

/-! ## Declarations -/

/-- Checks a global and declares it.  An immutable one needs an initial value. -/
def Global.check (types : TypeNames) (g : Global) (scope : Scope) : Checked Global Scope :=
  if g.value.isNone && !g.isMutable then
    let name := g.name
    .fail g (.invalidForm s!"immutable global `{name}` needs an initial value" g.span)
  else
    (declarationTy types scope g.name g.typeName g.value g.span).andThen
      (fun value => { g with value }) fun value ty =>
        let binding : VariableBinding := ⟨g.name, ty, g.isMutable⟩
        match scope.addVariable binding .nil g.span with
        | .ok scope => .pass { g with value, binding := Slot.fill g.binding binding } scope
        | .error e => .fail { g with value } e

/-- The name and types of a function: there is one type for every parameter. -/
def FunctionDef.signature (types : TypeNames) (f : FunctionDef) :
    Except Error FunctionBinding :=
  if f.parameters.length ≠ f.parameterTypeNames.length then
    let name := f.name
    .error (.invalidForm s!"every parameter of `{name}` needs exactly one type" f.span)
  else do
    let parameterTypes ← f.parameterTypeNames.mapM fun name => types.resolve name f.span
    let returnType ← f.returnTy types
    return ⟨f.name, parameterTypes, returnType⟩

/-- Declares the function at a position of the program. -/
def FunctionDef.declare (types : TypeNames) (index : Nat) (f : FunctionDef)
    (scope : Scope) : Checked FunctionDef (Scope × FunctionBinding) :=
  let declared := do
    let binding ← f.signature types
    let scope ← scope.addFunction ⟨binding, .declared index⟩ f.span
    return (scope, binding)
  match declared with
  | .ok (scope, binding) =>
    .pass { f with binding := Slot.fill f.binding binding } (scope, binding)
  | .error e => .fail f e

/-- Declares functions that stand at the positions from `index` on, until one fails. -/
def FunctionDef.declareAll (types : TypeNames) (index : Nat) :
    List FunctionDef → Scope → Checked (List FunctionDef) (Scope × List FunctionBinding)
  | [], scope => .pass [] (scope, [])
  | f :: rest, scope =>
    (f.declare types index scope).andThen (· :: rest) fun f (scope, binding) =>
      (declareAll types (index + 1) rest scope).andThen (f :: ·)
        fun rest (scope, bindings) => .pass (f :: rest) (scope, binding :: bindings)

/-- Checks everything but the bodies of the functions; leaves what is known to the bodies. -/
def Program.declare (types : TypeNames) (p : Program) :
    Checked Program (Scope × List FunctionBinding) :=
  match p.entryPoint types with
  | .error e => .fail p e
  | .ok _ =>
    (Checked.each (Global.check types) p.globals Scope.initial).andThen
      (fun globals => { p with globals }) fun globals scope =>
        (FunctionDef.declareAll types 0 p.functions scope).inside
          fun functions => ⟨globals, functions⟩

/-! ## Bodies -/

/-- Declares parameters in the innermost frame. -/
def declareParameters (span : Span) : List String → List Ty → Scope → Except Error Scope
  | name :: names, ty :: tys, scope => do
    let scope ← scope.addVariable ⟨name, ty, true⟩ .nil span
    declareParameters span names tys scope
  | _, _, scope => .ok scope

/-- A checker, which serves for one program after another. -/
structure Analyzer where
  /-- What type names stand for. -/
  types : TypeNames
  /-- The type that is expected of the result of the function whose body is being checked; there is
  none between bodies. -/
  expected : Option Ty
  deriving Inhabited

namespace Analyzer

/-- A checker that has not checked anything yet. -/
def new (types : TypeNames) : Analyzer := ⟨types, none⟩

/-- Checks the body of a function in a frame that holds its parameters.  What is expected of its
result is known while the body is checked, and forgotten afterwards however the check ends. -/
def checkFunction (a : Analyzer) (scope : Scope) (f : FunctionDef) (binding : FunctionBinding) :
    Checked FunctionDef Unit × Analyzer :=
  match declareParameters f.span f.parameters binding.parameterTypes scope.child with
  | .ok scope =>
    let inside := { a with expected := some binding.returnType }
    let checked := (Stmt.checkBlock inside.types inside.expected f.body scope).andThen
      (fun body => { f with body }) fun body _ => .pass { f with body } ()
    (checked, { inside with expected := none })
  | .error e => (.fail f e, a)

/-- Checks the bodies of functions, until one fails. -/
def checkFunctions (a : Analyzer) (scope : Scope) :
    List FunctionDef → List FunctionBinding → Checked (List FunctionDef) Unit × Analyzer
  | f :: rest, binding :: bindings =>
    let (checked, a) := a.checkFunction scope f binding
    match checked.verdict with
    | .ok _ =>
      let (others, a) := a.checkFunctions scope rest bindings
      (others.inside (checked.node :: ·), a)
    | .error e => (.fail (checked.node :: rest) e, a)
  | functions, _ => (.pass functions (), a)

/-- Checks a program and annotates it: everything but the bodies first, then the bodies. -/
def analyze (a : Analyzer) (p : Program) : Checked Program Unit × Analyzer :=
  let declared := p.declare a.types
  match declared.verdict with
  | .ok (scope, bindings) =>
    let (bodies, a) := a.checkFunctions scope declared.node.functions bindings
    (bodies.inside fun functions => { declared.node with functions }, a)
  | .error e => (.fail declared.node e, a)

/-! ### How the checks compute -/

/-- The bodies of functions are checked one after the other. -/
theorem checkFunctions_cons {a : Analyzer} {scope : Scope} {f : FunctionDef}
    {rest : List FunctionDef} {binding : FunctionBinding} {bindings : List FunctionBinding} :
    (a.checkFunctions scope (f :: rest) (binding :: bindings)).1 =
      (a.checkFunction scope f binding).1.andThen (· :: rest) fun f' _ =>
        ((a.checkFunction scope f binding).2.checkFunctions scope rest bindings).1.inside
          (f' :: ·) := by
  rw [checkFunctions, Checked.andThen]
  cases hverdict : (a.checkFunction scope f binding).1.verdict with
  | ok _ => simp only [hverdict]
  | error e => simp only [hverdict]; rfl

/-- Type names stand for the same before and after the check of a body. -/
@[simp]
theorem types_checkFunction {a : Analyzer} {scope : Scope} {f : FunctionDef}
    {binding : FunctionBinding} : (a.checkFunction scope f binding).2.types = a.types := by
  rw [checkFunction]
  split <;> rfl

/-- A program is checked in two parts: everything but the bodies of the functions, then the
bodies. -/
theorem analyze_eq {a : Analyzer} {p : Program} :
    (a.analyze p).1 = (p.declare a.types).andThen id fun declared (scope, bindings) =>
      (a.checkFunctions scope declared.functions bindings).1.inside
        fun functions => { declared with functions } := by
  rw [analyze, Checked.andThen]
  cases (p.declare a.types).verdict with
  | ok _ => rfl
  | error e => rfl

end Analyzer

/-! ## Programs -/

/-- Checks a program with a new checker. -/
def Program.analyze (types : TypeNames) (p : Program) : Checked Program Unit :=
  ((Analyzer.new types).analyze p).1

end ImpTree
