import ImpTree.Ty

/-!
# Bindings

What a name is bound to, as the checker records it in a tree: the part of a variable or function
that does not change while a program runs.
-/

namespace ImpTree

/-- What is known of a variable before the program runs. -/
structure VariableBinding where
  /-- The variable's name. -/
  name : String
  /-- The type of its values. -/
  ty : Ty
  /-- May it be assigned to? -/
  isMutable : Bool
  deriving DecidableEq, Inhabited

/-- What is known of a function before the program runs. -/
structure FunctionBinding where
  /-- The function's name. -/
  name : String
  /-- The types of its parameters, in order. -/
  parameterTypes : List Ty
  /-- The type of its result. -/
  returnType : Ty
  deriving DecidableEq, Inhabited

/-- The number of arguments a function takes. -/
def FunctionBinding.arity (f : FunctionBinding) : Nat := f.parameterTypes.length

/-- A function that needs no definition in a program. -/
inductive Builtin where
  /-- Writes the textual form of its argument on a line of its own. -/
  | print
  deriving DecidableEq, Inhabited

namespace Builtin

/-- The built-in functions. -/
def all : List Builtin := [print]

/-- The name and types under which a built-in function is known. -/
def binding : Builtin → FunctionBinding
  | print => ⟨"print", [.any], .nil⟩

end Builtin

end ImpTree
