import ImpTree.Analysis.Checked
import ImpTree.Scope
import ImpTree.Tree

/-!
# Checking expressions

The type of an expression in a scope, written into the expression's slots on the way.

* `Literal.ty` — the type of a constant, which must be in range.
* `BinaryOp.resultTy` — the type that an operator gives to two operand types.
* `Expr.check` — the type of an expression.
-/

namespace ImpTree

/-! ## Requirements -/

/-- The error for a type that stands where another is needed. -/
def Ty.mismatch (expected got : Ty) (span : Span) : Error :=
  .typeMismatch expected.text got.text span

/-- A value of type `source` must be one that `target` accepts. -/
def Ty.requireAccepts (target source : Ty) (span : Span) : Except Error Unit :=
  if target.accepts source then .ok () else .error (target.mismatch source span)

/-- The type must be exactly the expected one. -/
def Ty.requireSame (expected got : Ty) (span : Span) : Except Error Unit :=
  if got = expected then .ok () else .error (expected.mismatch got span)

/-! ## Literals -/

/-- The type of a constant.  An integer must fit into 32 bits, and the binary floating-point number
nearest to a decimal must be finite. -/
def Literal.ty (literal : Literal) (span : Span) : Except Error Ty :=
  match literal with
  | .nil => .ok .nil
  | .boolean _ => .ok .boolean
  | .character _ => .ok .character
  | .string _ => .ok .string
  | .integer n =>
    if -2147483648 ≤ n ∧ n ≤ 2147483647 then .ok .integer
    else .error (.literalRange (Integer.text n) span)
  | .decimal d =>
    if d.toBinary64.isInfinite then .error (.literalRange d.text span) else .ok .decimal

/-! ## Operators -/

/-- The type of a sum, difference, product or quotient: both operands are integers or both are
decimals. -/
def Ty.arithmetic (left right : Ty) (span : Span) : Except Error Ty :=
  if !left.isNumeric then .error (.typeMismatch "Integer or Decimal" left.text span)
  else if right ≠ left then .error (left.mismatch right span)
  else .ok left

/-- The type of an operator's result.  Logic takes truth values; a comparison takes two values with
an order of their own, the right one acceptable where the left one is; a sum with a text on either
side is a text; a power takes integers. -/
def BinaryOp.resultTy (op : BinaryOp) (left right : Ty) (span : Span) : Except Error Ty :=
  match op with
  | .and | .or => do
    Ty.boolean.requireSame left span
    Ty.boolean.requireSame right span
    return .boolean
  | .lt | .gt | .eq | .ne => do
    Ty.comparable.requireAccepts left span
    Ty.comparable.requireAccepts right span
    left.requireAccepts right span
    return .boolean
  | .add =>
    if left = .string ∨ right = .string then .ok .string else left.arithmetic right span
  | .sub | .mul | .div => left.arithmetic right span
  | .pow => do
    Ty.integer.requireSame left span
    Ty.integer.requireSame right span
    return .integer

/-! ## Expressions -/

namespace Expr

/-- Is the expression an operator between two operands? -/
def isBinary : Expr → Bool
  | binary .. => true
  | _ => false

/-- Is the expression a call? -/
def isCall : Expr → Bool
  | call .. => true
  | _ => false

/-- Does the expression name a place that can be assigned to? -/
def isPlace : Expr → Bool
  | var .. | element .. => true
  | _ => false

variable [Filling]

/-- Ends the check of an expression: a type goes into the expression's slot. -/
def settle (verdict : Except Error Ty) (slot : Slot Ty) (build : Slot Ty → Expr) :
    Checked Expr Ty :=
  match verdict with
  | .ok ty => .pass (build (slot.fill ty)) ty
  | .error e => .fail (build slot) e

/-- The binding of a variable that holds a list, with the type of its elements. -/
def lookupList (scope : Scope) (name : String) (span : Span) :
    Except Error (VariableBinding × Ty) := do
  let found ← scope.findVariable name span
  match found.binding.ty with
  | .list ty => return (found.binding, ty)
  | ty => throw (.typeMismatch "List" ty.text span)

mutual

/-- The type of an expression.  The parts are checked from left to right before the whole. -/
def check (scope : Scope) : Expr → Checked Expr Ty
  | literal value span slot => settle (value.ty span) slot (literal value span)
  | group inner span slot =>
    if inner.isBinary then
      (check scope inner).andThen (group · span slot) fun inner ty =>
        settle (.ok ty) slot (group inner span)
    else
      .fail (group inner span slot)
        (.invalidForm "parentheses may only wrap a binary expression" span)
  | binary op left right span slot =>
    (check scope left).andThen (binary op · right span slot) fun left leftTy =>
      (check scope right).andThen (binary op left · span slot) fun right rightTy =>
        settle (op.resultTy leftTy rightTy span) slot (binary op left right span)
  | var name binding span slot =>
    match scope.findVariable name span with
    | .ok found =>
      settle (.ok found.binding.ty) slot (var name (binding.fill found.binding) span)
    | .error e => .fail (var name binding span slot) e
  | element name offset binding span slot =>
    (check scope offset).andThen (element name · binding span slot) fun offset offsetTy =>
      match (Ty.integer.requireSame offsetTy offset.span).bind fun _ =>
        lookupList scope name span with
      | .ok (bound, ty) =>
        settle (.ok ty) slot (element name offset (binding.fill bound) span)
      | .error e => .fail (element name offset binding span slot) e
  | call name arguments binding span slot =>
    match scope.findFunction name arguments.length span with
    | .ok callee =>
      (checkArguments scope arguments callee.binding.parameterTypes).andThen
        (call name · binding span slot) fun arguments _ =>
          settle (.ok callee.binding.returnType) slot
            (call name arguments (binding.fill callee.binding) span)
    | .error e => .fail (call name arguments binding span slot) e
  | list elements span slot =>
    (checkElements scope none elements).andThen (list · span slot) fun elements ty =>
      match ty with
      | some ty => settle (.ok (.list ty)) slot (list elements span)
      | none =>
        .fail (list elements span slot)
          (.invalidForm "list literal needs at least one element" span)

/-- Checks arguments from left to right, each against the type of its parameter. -/
def checkArguments (scope : Scope) : List Expr → List Ty → Checked (List Expr) Unit
  | argument :: rest, parameter :: parameters =>
    (check scope argument).andThen (· :: rest) fun argument ty =>
      match parameter.requireAccepts ty argument.span with
      | .ok _ => (checkArguments scope rest parameters).inside (argument :: ·)
      | .error e => .fail (argument :: rest) e
  | arguments, _ => .pass arguments ()

/-- Checks the elements of a list from left to right; all must have the type of the first.  The
result is that type, if there is an element. -/
def checkElements (scope : Scope) (expected : Option Ty) :
    List Expr → Checked (List Expr) (Option Ty)
  | [] => .pass [] expected
  | item :: rest =>
    (check scope item).andThen (· :: rest) fun item ty =>
      match (expected.getD ty).requireSame ty item.span with
      | .ok _ => (checkElements scope (some ty) rest).inside (item :: ·)
      | .error e => .fail (item :: rest) e

end

end Expr

end ImpTree
