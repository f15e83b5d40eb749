import ImpTree.Run.Eval
import ImpTree.Run.Operators

/-!
# Evaluating expressions

The value of an expression in a state.  Parts are evaluated from left to right; the right operand of
`&&` and `||` only if it decides the result.

* `Host` — what evaluation needs from outside: a sink, and the meaning of calls.
* `Builtin.invoke` — the meaning of a call of a built-in function.
* `Expr.evaluate` — the value of an expression.
-/

namespace ImpTree

/-- What evaluation needs from outside. -/
structure Host where
  /-- What the program writes to. -/
  sink : Sink
  /-- How many rounds a loop is given. -/
  rounds : Nat
  /-- A call of the function at a position of the program. -/
  call : Nat → List Value → Eval Value

/-- Writes each value on a line of its own. -/
def printLines (sink : Sink) : List Value → Eval Unit
  | [] => pure ()
  | v :: rest => do
    Eval.writeAll sink (v.writes ++ ["\n"])
    printLines sink rest

/-- A call of a built-in function. -/
def Builtin.invoke (sink : Sink) (arguments : List Value) : Builtin → Eval Value
  | .print => do
    printLines sink arguments
    return .nil

/-- A call of a built-in or a declared function. -/
def Target.invoke (host : Host) (arguments : List Value) : Target → Eval Value
  | .builtin function => function.invoke host.sink arguments
  | .declared index => host.call index arguments

namespace Expr

mutual

/-- The value of an expression. -/
def evaluate (host : Host) : Expr → Eval Value
  | literal value _ _ => pure value.value
  | group inner _ _ => evaluate host inner
  | binary op left right span _ => do
    let a ← evaluate host left
    if op = .and ∨ op = .or then
      let decided ← Eval.lift (a.truth left.span)
      if decided = (op == .or) then
        return .boolean decided
      else
        let b ← evaluate host right
        let result ← Eval.lift (b.truth right.span)
        return .boolean result
    else
      let b ← evaluate host right
      Eval.lift (op.apply a b span)
  | var name _ span _ => do
    let found ← Eval.lookup name span
    return found.value
  | element name offset _ span _ => do
    let index ← evaluate host offset
    let found ← Eval.lookup name span
    Eval.lift (found.value.elementAt index span)
  | call name arguments _ span _ => do
    let values ← evaluateAll host arguments
    let callee ← Eval.lift ((← Eval.scope).findFunction name values.length span)
    callee.target.invoke host values
  | list elements _ _ => do
    let values ← evaluateAll host elements
    return .list values

/-- The values of expressions, evaluated one after the other. -/
def evaluateAll (host : Host) : List Expr → Eval (List Value)
  | [] => pure []
  | e :: rest => do
    let value ← evaluate host e
    let values ← evaluateAll host rest
    return value :: values

end

/-- The value of a condition. -/
def evaluateCondition (host : Host) (condition : Expr) : Eval Bool := do
  let value ← condition.evaluate host
  Eval.lift (value.truth condition.span)

/-- The value of an expression, or the missing value where there is none. -/
def evaluateOption (host : Host) : Option Expr → Eval Value
  | some e => e.evaluate host
  | none => pure .nil

end Expr

end ImpTree
