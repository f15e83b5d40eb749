import ImpTree.Analysis.Expr
import ImpTree.TypeNames

/-!
# Checking statements

A statement is checked in a scope and leaves a scope with the variables it declares.  Blocks inside
a statement have a frame of their own.

* `declarationTy` — the type of a declaration: the named one, that of the initial value, or both.
* `Ty.requireResult` — the type of a result that is returned must be the expected one.
* `Stmt.check`, `Stmt.checkBlock` — a statement, and statements one after the other.
* `Case.check` — one arm of a switch.
-/

namespace ImpTree

variable [Filling]

/-- The type of a declaration.  A named type is resolved first; an initial value must be one that
the named type accepts; without a named type the value's type is taken. -/
def declarationTy (types : TypeNames) (scope : Scope) (name : String)
    (typeName : Option String) (value : Option Expr) (span : Span) : Checked (Option Expr) Ty :=
  match typeName.mapM fun typeName => types.resolve typeName span with
  | .error e => .fail value e
  | .ok declared =>
    match value with
    | some expr =>
      (expr.check scope).andThen some fun expr ty =>
        match declared with
        | some declared =>
          .done (some expr) ((declared.requireAccepts ty expr.span).map fun _ => declared)
        | none => .pass (some expr) ty
    | none =>
      match declared with
      | some declared => .pass none declared
      | none =>
        .fail none (.invalidForm s!"`{name}` needs a type or an initial value" span)

namespace Expr

/-- Checks a condition, which must be a truth value. -/
def checkCondition (scope : Scope) (condition : Expr) : Checked Expr Unit :=
  (condition.check scope).andThen id fun condition ty =>
    .done condition (Ty.boolean.requireSame ty condition.span)

/-- A place that is known to be immutable must not be assigned to. -/
def requireMutable (place : Expr) (span : Span) : Except Error Unit :=
  match place with
  | var name (some binding) _ _ | element name _ (some binding) _ _ =>
    if binding.isMutable then .ok ()
    else .error (.invalidForm s!"cannot assign to immutable variable `{name}`" span)
  | _ => .ok ()

end Expr

/-- A result must have exactly the type that is expected of the function around it; without a
function around it there is nothing to return from. -/
def Ty.requireResult (expected : Option Ty) (got : Ty) (valueSpan span : Span) :
    Except Error Unit :=
  match expected with
  | some result => result.requireSame got valueSpan
  | none => .error (.invalidForm "RETURN outside of a function" span)

mutual

/-- Checks a statement in a function of which a result is expected; leaves the scope for the
statements after it. -/
def Stmt.check (types : TypeNames) (expected : Option Ty) : Stmt → Scope → Checked Stmt Scope
  | .expression expr span, scope =>
    if expr.isCall then
      (expr.check scope).andThen (.expression · span) fun expr _ =>
        .pass (.expression expr span) scope
    else
      .fail (.expression expr span)
        (.invalidForm "expression statement must be a function call" span)
  | .declaration name typeName value binding span, scope =>
    (declarationTy types scope name typeName value span).andThen
      (.declaration name typeName · binding span) fun value ty =>
        match scope.addVariable ⟨name, ty, true⟩ .nil span with
        | .ok scope =>
          .pass (.declaration name typeName value (binding.fill ⟨name, ty, true⟩) span) scope
        | .error e => .fail (.declaration name typeName value binding span) e
  | .assignment receiver value span, scope =>
    if receiver.isPlace then
      (receiver.check scope).andThen (.assignment · value span) fun receiver receiverTy =>
        (value.check scope).andThen (.assignment receiver · span) fun value valueTy =>
          .done (.assignment receiver value span) do
            receiver.requireMutable span
            receiverTy.requireAccepts valueTy value.span
            return scope
    else
      .fail (.assignment receiver value span)
        (.invalidForm "assignment target must be a variable or list element" span)
  | .ifElse condition thenBody elseBody span, scope =>
    (condition.checkCondition scope).andThen (.ifElse · thenBody elseBody span)
      fun condition _ =>
        if thenBody.isEmpty then
          .fail (.ifElse condition thenBody elseBody span)
            (.invalidForm "IF requires at least one statement" span)
        else
          (Stmt.checkBlock types expected thenBody scope.child).andThen
            (.ifElse condition · elseBody span) fun thenBody _ =>
              (Stmt.checkBlock types expected elseBody scope.child).andThen
                (.ifElse condition thenBody · span) fun elseBody _ =>
                  .pass (.ifElse condition thenBody elseBody span) scope
  | .switch condition cases span, scope =>
    (condition.check scope).andThen (.switch · cases span) fun condition ty =>
      if cases.isEmpty then
        .fail (.switch condition cases span)
          (.invalidForm "SWITCH requires a DEFAULT case" span)
      else
        (Stmt.checkCases types expected scope ty cases).andThen (.switch condition · span)
          fun cases _ => .pass (.switch condition cases span) scope
  | .whileLoop condition body span, scope =>
    (condition.checkCondition scope).andThen (.whileLoop · body span) fun condition _ =>
      (Stmt.checkBlock types expected body scope.child).andThen (.whileLoop condition · span)
        fun body _ => .pass (.whileLoop condition body span) scope
  | .ret value span, scope =>
    (value.check scope).andThen (.ret · span) fun value ty =>
      .done (.ret value span) ((Ty.requireResult expected ty value.span span).map fun _ => scope)

/-- Checks statements one after the other, until one fails. -/
def Stmt.checkBlock (types : TypeNames) (expected : Option Ty) :
    List Stmt → Scope → Checked (List Stmt) Scope
  | [], scope => .pass [] scope
  | stmt :: rest, scope =>
    (Stmt.check types expected stmt scope).andThen (· :: rest) fun stmt scope =>
      (Stmt.checkBlock types expected rest scope).inside (stmt :: ·)

/-- Checks one arm of a switch over a condition of type `ty`.  The last arm, and only the last, has
no value. -/
def Case.check (types : TypeNames) (expected : Option Ty) (scope : Scope) (ty : Ty)
    (isLast : Bool) : Case → Checked Case Unit
  | .mk (some value) body span =>
    if isLast then
      .fail (.mk (some value) body span) (.invalidForm "DEFAULT case cannot have a value" span)
    else
      (value.check scope).andThen (fun value => .mk (some value) body span) fun value valueTy =>
        match ty.requireSame valueTy value.span with
        | .ok _ =>
          (Stmt.checkBlock types expected body scope.child).andThen
            (.mk (some value) · span) fun body _ => .pass (.mk (some value) body span) ()
        | .error e => .fail (.mk (some value) body span) e
  | .mk none body span =>
    if isLast then
      (Stmt.checkBlock types expected body scope.child).andThen (.mk none · span)
        fun body _ => .pass (.mk none body span) ()
    else
      .fail (.mk none body span) (.invalidForm "only the last case may omit its value" span)

/-- Checks the arms of a switch one after the other, until one fails. -/
def Stmt.checkCases (types : TypeNames) (expected : Option Ty) (scope : Scope) (ty : Ty) :
    List Case → Checked (List Case) Unit
  | [] => .pass [] ()
  | arm :: rest =>
    (Case.check types expected scope ty rest.isEmpty arm).andThen (· :: rest) fun arm _ =>
      (Stmt.checkCases types expected scope ty rest).inside (arm :: ·)

end

end ImpTree
