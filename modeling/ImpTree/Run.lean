import ImpTree.Run.Stmt

/-!
# Running programs

A run evaluates the globals in order, declares the functions and calls `main`.  Annotations play no
part in it.

* `FunctionDef.apply` — the meaning of a call, in a frame with the arguments.
* `callWithin` — calls up to a depth.
* `Program.start` — a whole run as a computation.
* `Program.runWithin`, `Program.run` — its outcome, within a number of rounds or without a limit
  that matters.
-/

namespace ImpTree

/-! ## Calls -/

/-- Declares arguments under the names of the parameters. -/
def declareArguments (span : Span) : List String → List Value → Eval Unit
  | name :: names, value :: values => do
    Eval.declare (runVariable name) value span
    declareArguments span names values
  | _, _ => pure ()

/-- A call of a declared function.  A function that ends without a result has the missing value. -/
def FunctionDef.apply (host : Host) (f : FunctionDef) (arguments : List Value) : Eval Value :=
  Eval.inCall do
    declareArguments f.span f.parameters arguments
    let flow ← Stmt.executeBlock host f.body
    return flow.getD .nil

/-- A call of the function at a position, nesting up to `depth` calls, with as many rounds for each
loop. -/
def callWithin (sink : Sink) (functions : List FunctionDef) :
    Nat → Nat → List Value → Eval Value
  | 0, _, _ => Eval.unfinished
  | depth + 1, index, arguments =>
    match functions[index]? with
    | some f =>
      f.apply ⟨sink, depth, fun index arguments => callWithin sink functions depth index arguments⟩
        arguments
    | none => Eval.fail (.unresolvedName s!"function #{index}" .nowhere)

/-- What a program evaluates against: calls nest up to `rounds` deep and loops end within as many
rounds. -/
def Program.host (p : Program) (sink : Sink) (rounds : Nat) : Host :=
  ⟨sink, rounds, callWithin sink p.functions rounds⟩

/-! ## Declarations -/

/-- Evaluates globals in order and declares each after its initial value. -/
def declareGlobals (host : Host) : List Global → Eval Unit
  | [] => pure ()
  | g :: rest => do
    let value ← Expr.evaluateOption host g.value
    Eval.declare ⟨g.name, .any, g.isMutable⟩ value g.span
    declareGlobals host rest

/-- The name under which a function is found during a run: any arguments will do. -/
def FunctionDef.runBinding (f : FunctionDef) : FunctionBinding :=
  ⟨f.name, f.parameters.map fun _ => .any, .any⟩

/-- Declares functions that stand at the positions from `index` on. -/
def declareFunctions (index : Nat) : List FunctionDef → Eval Unit
  | [] => pure ()
  | f :: rest => do
    let scope ← Eval.lift
      ((← Eval.scope).addFunction ⟨f.runBinding, .declared index⟩ f.span)
    Eval.setScope scope
    declareFunctions (index + 1) rest

/-- The position of the `main` that takes no arguments. -/
def Scope.mainIndex (s : Scope) : Except Error Nat :=
  match s.callee? "main" 0 with
  | some ⟨_, .declared index⟩ => .ok index
  | _ => .error (.entryPoint "no zero-argument function `main`")

/-! ## Runs -/

/-- A whole run: globals, functions, `main`, and the output flushed at the end. -/
def Program.start (host : Host) (p : Program) : Eval Value := do
  declareGlobals host p.globals
  declareFunctions 0 p.functions
  let main ← Eval.lift (← Eval.scope).mainIndex
  let result ← host.call main []
  Eval.flush host.sink
  return result

/-- How a run ended. -/
structure RunResult where
  /-- The value of `main`, or the error that ended the run. -/
  verdict : Except Error Value
  /-- The writes that the sink accepted, in order. -/
  writes : List String

namespace RunResult

/-- Everything that was written. -/
def output (r : RunResult) : String := String.join r.writes

/-- The result of an outcome, unless it is unfinished. -/
def ofOutcome? : Outcome Value → Option RunResult
  | .done value state => some ⟨.ok value, state.writes.reverse⟩
  | .failed e writes => some ⟨.error e, writes.reverse⟩
  | .unfinished => none

end RunResult

/-- The result of a run whose calls nest up to `rounds` deep and whose loops end within as many
rounds; none if that is not enough. -/
def Program.runWithin (rounds : Nat) (sink : Sink) (p : Program) : Option RunResult :=
  RunResult.ofOutcome? (p.start (p.host sink rounds) ⟨.initial, []⟩)

/-- More rounds than any run that ends can be watched for. -/
def ampleRounds : Nat := Nat.pow 2 62

/-- The result of a run; none for a program that does not end. -/
def Program.run (sink : Sink) (p : Program) : Option RunResult := p.runWithin ampleRounds sink

end ImpTree
