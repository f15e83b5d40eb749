import ImpTree.Run.Expr

/-!
# Executing statements

A statement changes the state and either lets the statements after it follow or ends the function
with a result.

* `assignTo` — a new value for a variable or an element of a list.
* `Stmt.execute`, `Stmt.executeBlock` — a statement, and statements one after the other.
* `Stmt.executeCases` — the arms of a switch.
-/

namespace ImpTree

/-- How a statement lets the function go on: with the next statement, or not at all because the
function's result is known. -/
abbrev Flow := Option Value

/-- Puts a value into the innermost variable of a name, which must be mutable; or, with an index,
into the list that the variable holds. -/
def assignTo (name : String) (index : Option Value) (value : Value) (placeSpan span : Span) :
    Eval Unit := do
  let found ← Eval.lookup name placeSpan
  if found.binding.isMutable then
    let value ←
      match index with
      | none => pure value
      | some index => Eval.lift (found.value.withElementAt index value placeSpan)
    Eval.setScope ((← Eval.scope).assign name value)
  else
    Eval.fail (.invalidForm s!"cannot assign to immutable variable `{name}`" span)

/-- A new variable of a run: any value may be assigned to it. -/
def runVariable (name : String) : VariableBinding := ⟨name, .any, true⟩

mutual

/-- Executes a statement. -/
def Stmt.execute (host : Host) : Stmt → Eval Flow
  | .expression expr _ => do
    let _ ← expr.evaluate host
    return none
  | .declaration name _ value _ span => do
    let value ← Expr.evaluateOption host value
    Eval.declare (runVariable name) value span
    return none
  | .assignment receiver value span =>
    match receiver with
    | .var name _ placeSpan _ => do
      let value ← value.evaluate host
      assignTo name none value placeSpan span
      return none
    | .element name offset _ placeSpan _ => do
      let index ← offset.evaluate host
      let value ← value.evaluate host
      assignTo name (some index) value placeSpan span
      return none
    | _ => Eval.fail (.invalidForm "assignment target must be a variable or list element" span)
  | .ifElse condition thenBody elseBody _ => do
    if ← condition.evaluateCondition host then
      Eval.inChild (Stmt.executeBlock host thenBody)
    else
      Eval.inChild (Stmt.executeBlock host elseBody)
  | .switch condition cases _ => do
    let value ← condition.evaluate host
    Stmt.executeCases host value cases
  | .whileLoop condition body _ =>
    Eval.loop (condition.evaluateCondition host) (Eval.inChild (Stmt.executeBlock host body))
      host.rounds
  | .ret value _ => do
    let value ← value.evaluate host
    return some value

/-- Executes statements one after the other, until one ends the function. -/
def Stmt.executeBlock (host : Host) : List Stmt → Eval Flow
  | [] => return none
  | stmt :: rest => do
    match ← Stmt.execute host stmt with
    | none => Stmt.executeBlock host rest
    | some value => return some value

/-- Tries one arm of a switch: `none` if its value does not equal the condition's; an arm without a
value always fits. -/
def Case.execute (host : Host) (condition : Value) : Case → Eval (Option Flow)
  | .mk value body _ => do
    let fits ←
      match value with
      | some value => do
        let value ← value.evaluate host
        pure (value.same condition)
      | none => pure true
    if fits then
      let flow ← Eval.inChild (Stmt.executeBlock host body)
      return some flow
    else
      return none

/-- Executes the first arm that fits; without one, nothing. -/
def Stmt.executeCases (host : Host) (condition : Value) : List Case → Eval Flow
  | [] => return none
  | arm :: rest => do
    match ← Case.execute host condition arm with
    | some flow => return flow
    | none => Stmt.executeCases host condition rest

end

end ImpTree
