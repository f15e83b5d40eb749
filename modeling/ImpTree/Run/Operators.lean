import ImpTree.Error
import ImpTree.Tree

/-!
# Operators on values

What operators, conditions and indices do with values.  The operands' kinds decide; types play no
part.

* `power` — a power by repeated squaring.
* `BinaryOp.apply` — an operator applied to two values.
* `Value.truth`, `Value.position`, `Value.elements` — a value used as a condition, as an index and
  as a list.
-/

namespace ImpTree

/-! ## Powers -/

/-- `accumulated * base ^ exponent`, by squaring the base and halving the exponent. -/
def powerFrom (accumulated base : Int) (exponent : Nat) : Int :=
  if exponent = 0 then accumulated
  else
    let accumulated := if exponent % 2 = 1 then accumulated * base else accumulated
    if exponent = 1 then accumulated
    else powerFrom accumulated (base * base) (exponent / 2)
termination_by exponent

/-- The power of an integer to a natural exponent. -/
def power (base : Int) (exponent : Nat) : Int := powerFrom 1 base exponent

namespace Value

/-! ## Uses of a value -/

/-- The error for a value whose kind does not fit. -/
def mismatch (expected : String) (got : Value) (span : Span) : Error :=
  .typeMismatch expected got.kind span

/-- A value used as a condition. -/
def truth (v : Value) (span : Span) : Except Error Bool :=
  match v with
  | boolean b => .ok b
  | other => .error (mismatch "Boolean" other span)

/-- A value used as an index into a list of a given length. -/
def position (v : Value) (length : Nat) (span : Span) : Except Error Nat :=
  match v with
  | integer n =>
    if 0 ≤ n ∧ n < length then .ok n.toNat
    else .error (.indexOutOfBounds (Integer.text n) length span)
  | other => .error (mismatch "Integer" other span)

/-- A value used as a list. -/
def elements (v : Value) (span : Span) : Except Error (List Value) :=
  match v with
  | list items => .ok items
  | other => .error (mismatch "List" other span)

/-- The element of a list at an index. -/
def elementAt (v index : Value) (span : Span) : Except Error Value := do
  let items ← v.elements span
  let i ← index.position items.length span
  return items.getD i nil

/-- The list with another element at an index. -/
def withElementAt (v index new : Value) (span : Span) : Except Error Value := do
  let items ← v.elements span
  let i ← index.position items.length span
  return list (items.set i new)

/-- Is the value a text? -/
def isString : Value → Bool
  | string _ => true
  | _ => false

/-! ## Arithmetic -/

/-- Arithmetic on two values of one numeric kind; `onIntegers` and `onDecimals` have no result for a
zero divisor. -/
def arithmetic (onIntegers : Int → Int → Option Int)
    (onDecimals : Decimal → Decimal → Option Decimal) (left right : Value) (span : Span) :
    Except Error Value :=
  match left, right with
  | integer a, integer b =>
    match onIntegers a b with
    | some n => .ok (integer n)
    | none => .error (.divisionByZero span)
  | decimal a, decimal b =>
    match onDecimals a b with
    | some d => .ok (decimal d)
    | none => .error (.divisionByZero span)
  | integer _, other => .error (mismatch "Integer" other span)
  | decimal _, other => .error (mismatch "Decimal" other span)
  | other, _ => .error (mismatch "Integer or Decimal" other span)

/-- The quotient of two integers, rounded towards zero. -/
def quotient? (a b : Int) : Option Int := if b = 0 then none else some (a.tdiv b)

/-- The order of two values, which must be of one orderable kind. -/
def ordering (left right : Value) (span : Span) : Except Error Ordering :=
  match left.order? right with
  | some order => .ok order
  | none => .error (mismatch left.kind right span)

/-- A power of integers; the exponent must not be negative. -/
def raised (left right : Value) (span : Span) : Except Error Value :=
  match left, right with
  | integer base, integer exponent =>
    if exponent < 0 then .error (.negativeExponent (Integer.text exponent) span)
    else .ok (integer (power base exponent.toNat))
  | integer _, other => .error (mismatch "Integer" other span)
  | other, _ => .error (mismatch "Integer" other span)

end Value

/-! ## Operators -/

/-- An operator applied to two values.  `+` joins texts as soon as one operand is a text; other
arithmetic needs two operands of one numeric kind. -/
def BinaryOp.apply (op : BinaryOp) (left right : Value) (span : Span) : Except Error Value :=
  match op with
  | .and => do
    let a ← left.truth span
    let b ← right.truth span
    return .boolean (a && b)
  | .or => do
    let a ← left.truth span
    let b ← right.truth span
    return .boolean (a || b)
  | .lt => do return .boolean ((← left.ordering right span) == .lt)
  | .gt => do return .boolean ((← left.ordering right span) == .gt)
  | .eq => .ok (.boolean (left.same right))
  | .ne => .ok (.boolean (!left.same right))
  | .add =>
    if left.isString || right.isString then .ok (.string (left.text ++ right.text))
    else left.arithmetic (fun a b => some (a + b)) (fun a b => some (a.add b)) right span
  | .sub => left.arithmetic (fun a b => some (a - b)) (fun a b => some (a.sub b)) right span
  | .mul => left.arithmetic (fun a b => some (a * b)) (fun a b => some (a.mul b)) right span
  | .div => left.arithmetic Value.quotient? Decimal.div? right span
  | .pow => left.raised right span

end ImpTree
