import ImpTree.Binding
import ImpTree.Error
import ImpTree.Value

/-!
# Scopes

A scope is a chain of frames.  Declarations go into the innermost frame; a name is looked up from
the innermost frame outwards.  The outermost frame, the root, belongs to the whole program and
knows the built-in functions.

* `Scope.initial` — the root alone.
* `Scope.child`, `Scope.leave` — one more frame inside, and back.
* `Scope.global` — the root alone, whatever is inside it.
* `Scope.addVariable`, `Scope.addFunction` — new names for the innermost frame.
* `Scope.findVariable`, `Scope.findFunction` — the innermost binding of a name.
* `Scope.assign` — a new value for the innermost variable of a name.
-/

namespace ImpTree

/-! ## Frames -/

/-- A variable with its present value. -/
structure Variable where
  /-- What does not change while the program runs. -/
  binding : VariableBinding
  /-- The present value. -/
  value : Value
  deriving Inhabited

/-- What is executed when a function is called. -/
inductive Target where
  /-- A built-in function. -/
  | builtin (function : Builtin)
  /-- The function at a position of the program. -/
  | declared (index : Nat)
  deriving DecidableEq, Inhabited

/-- A function that can be called. -/
structure Callee where
  /-- Its name and types. -/
  binding : FunctionBinding
  /-- What is executed. -/
  target : Target
  deriving DecidableEq, Inhabited

/-- The names of one block: variables by name, functions by name and number of arguments. -/
structure Frame where
  /-- the variables, the latest first. -/
  vars : List Variable
  /-- The functions, the latest first. -/
  callees : List Callee
  deriving Inhabited

namespace Frame

/-- The frame without names. -/
def empty : Frame := ⟨[], []⟩

/-- The variable of a given name. -/
def var? (f : Frame) (name : String) : Option Variable :=
  f.vars.find? fun v => v.binding.name == name

/-- The function of a given name and number of arguments. -/
def callee? (f : Frame) (name : String) (arity : Nat) : Option Callee :=
  f.callees.find? fun c => c.binding.name == name && c.binding.arity == arity

/-- Gives the variable of a name another value. -/
def assign (f : Frame) (name : String) (value : Value) : Frame :=
  { f with vars := f.vars.map fun v =>
      if v.binding.name == name then { v with value } else v }

end Frame

/-! ## Chains of frames -/

/-- The name under which messages speak of a function. -/
def callName (name : String) (arity : Nat) : String := s!"{name}/{arity}"

/-- A chain of frames, never empty. -/
structure Scope where
  /-- The frames inside the root, the innermost first. -/
  inner : List Frame
  /-- The outermost frame. -/
  root : Frame
  deriving Inhabited

namespace Scope

/-- The root alone, with the built-in functions. -/
def initial : Scope := ⟨[], ⟨[], Builtin.all.map fun b => ⟨b.binding, .builtin b⟩⟩⟩

/-- The scope with one more frame inside. -/
def child (s : Scope) : Scope := { s with inner := .empty :: s.inner }

/-- The scope without its innermost frame; the root is never left. -/
def leave (s : Scope) : Scope := { s with inner := s.inner.drop 1 }

/-- The root alone. -/
def global (s : Scope) : Scope := { s with inner := [] }

/-- How many frames stand between the innermost one and the outside, the root not counted. -/
def depth (s : Scope) : Nat := s.inner.length

/-- The innermost frame. -/
def innermost (s : Scope) : Frame := s.inner.head?.getD s.root

/-- Puts another frame in the place of the innermost one. -/
def withInnermost (s : Scope) (f : Frame) : Scope :=
  match s.inner with
  | [] => { s with root := f }
  | _ :: rest => { s with inner := f :: rest }

/-- The frames from the innermost one outwards. -/
def frames (s : Scope) : List Frame := s.inner ++ [s.root]

@[simp]
theorem leave_child (s : Scope) : s.child.leave = s := rfl

@[simp]
theorem global_child (s : Scope) : s.child.global = s.global := rfl

@[simp]
theorem depth_child (s : Scope) : s.child.depth = s.depth + 1 := rfl

@[simp]
theorem depth_global (s : Scope) : s.global.depth = 0 := rfl

@[simp]
theorem frames_child (s : Scope) : s.child.frames = Frame.empty :: s.frames := rfl

/-! ### Declarations -/

/-- Declares a variable in the innermost frame, which must not have one of that name. -/
def addVariable (s : Scope) (binding : VariableBinding) (value : Value) (span : Span) :
    Except Error Scope :=
  if (s.innermost.var? binding.name).isSome then
    .error (.duplicateBinding binding.name span)
  else
    .ok (s.withInnermost
      { s.innermost with vars := ⟨binding, value⟩ :: s.innermost.vars })

/-- Declares a function in the innermost frame, which must not have one of that name and number of
arguments. -/
def addFunction (s : Scope) (callee : Callee) (span : Span) : Except Error Scope :=
  let name := callee.binding.name
  let arity := callee.binding.arity
  if (s.innermost.callee? name arity).isSome then
    .error (.duplicateBinding (callName name arity) span)
  else
    .ok (s.withInnermost { s.innermost with callees := callee :: s.innermost.callees })

/-! ### Look-up -/

/-- The innermost variable of a name, if there is one. -/
def var? (s : Scope) (name : String) : Option Variable :=
  s.frames.findSome? fun f => f.var? name

/-- The innermost function of a name and number of arguments, if there is one. -/
def callee? (s : Scope) (name : String) (arity : Nat) : Option Callee :=
  s.frames.findSome? fun f => f.callee? name arity

/-- A new frame hides nothing. -/
@[simp]
theorem var?_child (s : Scope) (name : String) : s.child.var? name = s.var? name := rfl

/-- A new frame hides nothing. -/
@[simp]
theorem callee?_child (s : Scope) (name : String) (arity : Nat) :
    s.child.callee? name arity = s.callee? name arity := rfl

/-- The innermost variable of a name. -/
def findVariable (s : Scope) (name : String) (span : Span) : Except Error Variable :=
  match s.var? name with
  | some v => .ok v
  | none => .error (.unresolvedName name span)

/-- The innermost function of a name and number of arguments. -/
def findFunction (s : Scope) (name : String) (arity : Nat) (span : Span) :
    Except Error Callee :=
  match s.callee? name arity with
  | some c => .ok c
  | none => .error (.unresolvedName (callName name arity) span)

/-! ### Assignment -/

/-- Gives the first variable of a name another value, in a list of frames and, after them, in a last
one. -/
def assignIn (name : String) (value : Value) : List Frame → Frame → List Frame × Frame
  | [], last => ([], last.assign name value)
  | f :: rest, last =>
    if (f.var? name).isSome then (f.assign name value :: rest, last)
    else
      let (rest, last) := assignIn name value rest last
      (f :: rest, last)

/-- Gives the innermost variable of a name another value; without such a variable nothing
changes. -/
def assign (s : Scope) (name : String) (value : Value) : Scope :=
  let (inner, root) := assignIn name value s.inner s.root
  ⟨inner, root⟩

end Scope

end ImpTree
