import ImpTree.Proofs.Annotations.Shape
import ImpTree.Proofs.Run.Steps

/-!
# Runs do not read annotations

A tree and the same tree with empty slots mean the same computation, whatever its slots hold.

* `Expr.evaluate_erase`, `Stmt.execute_erase` — expressions and statements.
* `Program.runWithin_erase` — **whole runs**, to every sink and within any number of rounds.
* `Sink.after_eq` — earlier output does not matter to a sink that refuses nothing.
-/

namespace ImpTree

/-! ## Expressions -/

namespace Expr

variable {host : Host}

mutual

/-- The value of an expression does not depend on its annotations. -/
theorem evaluate_erase : ∀ e : Expr, e.erase.evaluate host = e.evaluate host
  | .literal value span ty => rfl
  | .group inner span ty => by
    rw [erase, evaluate, evaluate, evaluate_erase inner]
  | .binary op left right span ty => by
    rw [erase, evaluate, evaluate, evaluate_erase left, evaluate_erase right, span_erase,
      span_erase]
  | .var name binding span ty => rfl
  | .element name offset binding span ty => by
    rw [erase, evaluate, evaluate, evaluate_erase offset]
  | .call name arguments binding span ty => by
    rw [erase, evaluate, evaluate, evaluateAll_eraseAll arguments]
  | .list elements span ty => by
    rw [erase, evaluate, evaluate, evaluateAll_eraseAll elements]

/-- Neither do the values of several expressions. -/
theorem evaluateAll_eraseAll : ∀ es : List Expr,
    evaluateAll host (eraseAll es) = evaluateAll host es
  | [] => rfl
  | e :: rest => by
    rw [eraseAll, evaluateAll, evaluateAll, evaluate_erase e, evaluateAll_eraseAll rest]

end

/-- Neither does the value of a condition. -/
@[simp]
theorem evaluateCondition_erase (condition : Expr) :
    condition.erase.evaluateCondition host = condition.evaluateCondition host := by
  rw [evaluateCondition, evaluateCondition, evaluate_erase, span_erase]

/-- Neither does an initial value. -/
@[simp]
theorem evaluateOption_erase (value : Option Expr) :
    evaluateOption host (value.map erase) = evaluateOption host value := by
  cases value with
  | none => rfl
  | some e => exact evaluate_erase e

end Expr

/-! ## Statements -/

namespace Stmt

variable {host : Host}

mutual

/-- What a statement does does not depend on annotations. -/
theorem execute_erase : ∀ stmt : Stmt, stmt.erase.execute host = stmt.execute host
  | .expression expr span => by
    rw [erase, execute, execute, Expr.evaluate_erase]
  | .declaration name typeName value binding span => by
    rw [erase, execute, execute, Expr.evaluateOption_erase]
  | .assignment receiver value span => by
    cases receiver with
    | var name binding place ty =>
      rw [erase, Expr.erase, execute, execute, Expr.evaluate_erase]
    | element name offset binding place ty =>
      rw [erase, Expr.erase, execute, execute, Expr.evaluate_erase, Expr.evaluate_erase]
    | _ => rfl
  | .ifElse condition thenBody elseBody span => by
    rw [erase, execute, execute, Expr.evaluateCondition_erase, executeBlock_erase thenBody,
      executeBlock_erase elseBody]
  | .switch condition cases span => by
    rw [erase, execute, execute, Expr.evaluate_erase]
    exact congrArg (condition.evaluate host >>= ·) (funext fun v => executeCases_erase v cases)
  | .whileLoop condition body span => by
    rw [erase, execute, execute, Expr.evaluateCondition_erase, executeBlock_erase body]
  | .ret value span => by
    rw [erase, execute, execute, Expr.evaluate_erase]

/-- Neither does what a block does. -/
theorem executeBlock_erase : ∀ block : List Stmt,
    executeBlock host (eraseBlock block) = executeBlock host block
  | [] => rfl
  | stmt :: rest => by
    rw [eraseBlock, executeBlock, executeBlock, execute_erase stmt, executeBlock_erase rest]

/-- Neither does the choice of an arm of a switch. -/
theorem executeCases_erase (v : Value) : ∀ arms : List Case,
    executeCases host v (eraseCases arms) = executeCases host v arms
  | [] => rfl
  | .mk (some value) body span :: rest => by
    rw [eraseCases, Case.erase, Option.map_some, executeCases_value, executeCases_value,
      Expr.evaluate_erase, executeBlock_erase body, executeCases_erase v rest]
  | .mk none body span :: rest => by
    rw [eraseCases, Case.erase, Option.map_none, executeCases_default, executeCases_default,
      executeBlock_erase body]

end

end Stmt

/-! ## Runs -/

/-- A call does not depend on the annotations of the function. -/
theorem FunctionDef.apply_erase (host : Host) (f : FunctionDef) (arguments : List Value) :
    f.erase.apply host arguments = f.apply host arguments := by
  rw [FunctionDef.apply, FunctionDef.apply, FunctionDef.erase, Stmt.executeBlock_erase]

/-- Calls do not depend on the annotations of any function, by induction on their depth. -/
theorem callWithin_erase (sink : Sink) (functions : List FunctionDef) : ∀ depth : Nat,
    callWithin sink (functions.map FunctionDef.erase) depth = callWithin sink functions depth := by
  intro depth
  induction depth with
  | zero => rfl
  | succ depth ih =>
    funext index arguments
    rw [callWithin, callWithin, List.getElem?_map, ih]
    cases functions[index]? with
    | none => rfl
    | some f => exact FunctionDef.apply_erase _ f arguments

/-- The declarations of globals do not depend on their annotations. -/
theorem declareGlobals_erase (host : Host) : ∀ globals : List Global,
    declareGlobals host (globals.map Global.erase) = declareGlobals host globals := by
  intro globals
  induction globals with
  | nil => rfl
  | cons g rest ih =>
    rw [List.map_cons, declareGlobals, declareGlobals, ih, Global.erase,
      Expr.evaluateOption_erase]

/-- Nor do the declarations of functions. -/
theorem declareFunctions_erase : ∀ (functions : List FunctionDef) (index : Nat),
    declareFunctions index (functions.map FunctionDef.erase) =
      declareFunctions index functions := by
  intro functions
  induction functions with
  | nil => exact fun _ => rfl
  | cons f rest ih =>
    intro index
    rw [List.map_cons, declareFunctions, declareFunctions, ih]
    rfl

/-- **Runs do not read annotations.**  A program and the same program with empty slots come to the
same result with the same output, to every sink and within any number of rounds. -/
theorem Program.runWithin_erase (rounds : Nat) (sink : Sink) (p : Program) :
    p.erase.runWithin rounds sink = p.runWithin rounds sink := by
  have hhost : p.erase.host sink rounds = p.host sink rounds := by
    rw [Program.host, Program.host, Program.erase, callWithin_erase]
  rw [Program.runWithin, Program.runWithin, hhost, Program.start, Program.start, Program.erase,
    declareGlobals_erase, declareFunctions_erase]

/-- What has been written before does not matter to a sink that refuses nothing. -/
theorem Sink.after_eq {sink : Sink} (h : ∀ writes, sink.refusal? writes = none)
    (earlier : List String) : sink.after earlier = sink := by
  have hrefusal : (fun accepted => sink.refusal? (accepted ++ earlier)) = sink.refusal? :=
    funext fun accepted => (h _).trans (h _).symm
  rw [Sink.after, hrefusal]

end ImpTree
