import ImpTree.Proofs.Spans.Tree
import ImpTree.Run.Operators
import ImpTree.Scope

/-!
# Steps at other places

A step that fails at a place fails at the image of the place with the same error, and what it comes
to otherwise does not depend on the place.

* `Except.mapError_bind` — one step after the other.
* `Scope.addVariable_mapSpan`, `Scope.findVariable_mapSpan` — names that are declared and found.
* `BinaryOp.apply_mapSpan` — operators on values.
-/

namespace ImpTree

/-! ## Errors -/

namespace Except

variable {α β : Type} {σ : Span → Span}

@[simp]
theorem mapError_ok (a : α) : (Except.ok a : Except Error α).mapError (Error.mapSpan σ) = .ok a :=
  rfl

@[simp]
theorem mapError_error (e : Error) :
    (Except.error e : Except Error α).mapError (Error.mapSpan σ) = .error (e.mapSpan σ) := rfl

/-- One step after the other fails at the image of the place where it failed. -/
theorem mapError_bind (x : Except Error α) (f : α → Except Error β) :
    (x >>= f).mapError (Error.mapSpan σ) =
      x.mapError (Error.mapSpan σ) >>= fun a => (f a).mapError (Error.mapSpan σ) := by
  cases x <;> rfl

/-- What is made of a result does not matter to an error. -/
theorem mapError_map (x : Except Error α) (f : α → β) :
    (x.map f).mapError (Error.mapSpan σ) = (x.mapError (Error.mapSpan σ)).map f := by
  cases x <;> rfl

end Except

/-! ## Names -/

section Names

variable {σ : Span → Span} {scope : Scope} {span : Span}

theorem Scope.findVariable_mapSpan (name : String) :
    scope.findVariable name (σ span) =
      (scope.findVariable name span).mapError (Error.mapSpan σ) := by
  rw [findVariable, findVariable]
  split <;> rfl

theorem Scope.findFunction_mapSpan (name : String) (arity : Nat) :
    scope.findFunction name arity (σ span) =
      (scope.findFunction name arity span).mapError (Error.mapSpan σ) := by
  rw [findFunction, findFunction]
  split <;> rfl

theorem Scope.addVariable_mapSpan (binding : VariableBinding) (value : Value) :
    scope.addVariable binding value (σ span) =
      (scope.addVariable binding value span).mapError (Error.mapSpan σ) := by
  rw [addVariable, addVariable]
  split <;> rfl

theorem Scope.addFunction_mapSpan (callee : Callee) :
    scope.addFunction callee (σ span) =
      (scope.addFunction callee span).mapError (Error.mapSpan σ) := by
  simp only [addFunction]
  split <;> rfl

end Names

/-! ## Values -/

namespace Value

variable {σ : Span → Span} {span : Span}

theorem truth_mapSpan (v : Value) :
    v.truth (σ span) = (v.truth span).mapError (Error.mapSpan σ) := by
  cases v <;> rfl

theorem elements_mapSpan (v : Value) :
    v.elements (σ span) = (v.elements span).mapError (Error.mapSpan σ) := by
  cases v <;> rfl

theorem position_mapSpan (v : Value) (length : Nat) :
    v.position length (σ span) = (v.position length span).mapError (Error.mapSpan σ) := by
  cases v with
  | integer n =>
    simp only [position]
    split <;> rfl
  | _ => rfl

theorem elementAt_mapSpan (v index : Value) :
    v.elementAt index (σ span) = (v.elementAt index span).mapError (Error.mapSpan σ) := by
  simp only [elementAt, Except.mapError_bind, elements_mapSpan, position_mapSpan]
  rfl

theorem withElementAt_mapSpan (v index new : Value) :
    v.withElementAt index new (σ span) =
      (v.withElementAt index new span).mapError (Error.mapSpan σ) := by
  simp only [withElementAt, Except.mapError_bind, elements_mapSpan, position_mapSpan]
  rfl

theorem ordering_mapSpan (left right : Value) :
    left.ordering right (σ span) = (left.ordering right span).mapError (Error.mapSpan σ) := by
  rw [ordering, ordering]
  split <;> rfl

theorem raised_mapSpan (left right : Value) :
    left.raised right (σ span) = (left.raised right span).mapError (Error.mapSpan σ) := by
  cases left with
  | integer base =>
    cases right with
    | integer exponent =>
      simp only [raised]
      split <;> rfl
    | _ => rfl
  | _ => rfl

theorem arithmetic_mapSpan (onIntegers : Int → Int → Option Int)
    (onDecimals : Decimal → Decimal → Option Decimal) (left right : Value) :
    left.arithmetic onIntegers onDecimals right (σ span) =
      (left.arithmetic onIntegers onDecimals right span).mapError (Error.mapSpan σ) := by
  cases left with
  | integer a =>
    cases right with
    | integer b =>
      simp only [arithmetic]
      split <;> rfl
    | _ => rfl
  | decimal a =>
    cases right with
    | decimal b =>
      simp only [arithmetic]
      split <;> rfl
    | _ => rfl
  | _ => rfl

end Value

/-- What an operator comes to depends on the operands only, and an error points at the operator. -/
theorem BinaryOp.apply_mapSpan {σ : Span → Span} {span : Span} (op : BinaryOp)
    (left right : Value) :
    op.apply left right (σ span) = (op.apply left right span).mapError (Error.mapSpan σ) := by
  cases op with
  | add =>
    simp only [apply]
    split
    · rfl
    · exact Value.arithmetic_mapSpan ..
  | sub | mul | div =>
    rw [apply, apply]
    exact Value.arithmetic_mapSpan _ _ left right
  | pow => exact Value.raised_mapSpan left right
  | eq | ne => rfl
  | _ =>
    simp only [apply, Value.truth_mapSpan (σ := σ), Value.ordering_mapSpan (σ := σ),
      Except.mapError_bind]
    rfl

end ImpTree
