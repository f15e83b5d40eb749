import ImpTree.Binding
import ImpTree.Span
import ImpTree.Value

/-!
# Syntax trees

The tree form of a program.  A tree is built once; checking it fills its annotation slots and
changes nothing else.

* `Slot` — a place for an annotation, filled at most once; `Filling`, what a second value does.
* `Literal`, `BinaryOp`, `Expr` — expressions.
* `Stmt`, `Case` — statements and the arms of a switch.
* `Global`, `FunctionDef`, `Program` — whole programs.
-/

namespace ImpTree

/-! ## Annotation slots -/

/-- A place for an annotation: empty, or filled for good. -/
abbrev Slot (α : Type) := Option α

/-- What a value does to a slot.  An empty slot takes it and a slot that holds it stays as it is.
A value that differs from what the slot holds must not come; what it does is left open, since a
build with assertions stops there and one without goes on. -/
class Filling where
  /-- The slot after a value for it. -/
  fill {α : Type} : Option α → α → Option α
  /-- An empty slot takes the value. -/
  fill_none {α : Type} (a : α) : fill none a = some a
  /-- A slot that holds the value stays as it is. -/
  fill_same {α : Type} (a : α) : fill (some a) a = some a

namespace Filling

/-- The filling of a build without assertions: what a slot holds stays. -/
instance keeping : Filling where
  fill slot value := some (slot.getD value)
  fill_none _ := rfl
  fill_same _ := rfl

/-- The filling by which the latest value stays. -/
@[reducible]
def replacing : Filling where
  fill _ value := some value
  fill_none _ := rfl
  fill_same _ := rfl

end Filling

namespace Slot

variable [Filling] {α : Type}

/-- Fills a slot. -/
def fill (slot : Slot α) (value : α) : Slot α := Filling.fill slot value

@[simp]
theorem fill_none (a : α) : fill none a = some a := Filling.fill_none a

@[simp]
theorem fill_same (a : α) : fill (some a) a = some a := Filling.fill_same a

end Slot

/-! ## Expressions -/

/-- A constant as it stands in a program. -/
inductive Literal where
  /-- The missing value. -/
  | nil
  /-- A truth value. -/
  | boolean (b : Bool)
  /-- A whole number. -/
  | integer (n : Int)
  /-- A decimal fraction. -/
  | decimal (d : Decimal)
  /-- A single character. -/
  | character (c : Char)
  /-- A text. -/
  | string (s : String)
  deriving DecidableEq, Inhabited

/-- The value that a literal stands for. -/
def Literal.value : Literal → Value
  | nil => .nil
  | boolean b => .boolean b
  | integer n => .integer n
  | decimal d => .decimal d
  | character c => .character c
  | string s => .string s

/-- An operator between two operands. -/
inductive BinaryOp where
  /-- Both conditions hold. -/
  | and
  /-- One of the conditions holds, or both. -/
  | or
  /-- The left operand comes before the right one. -/
  | lt
  /-- The left operand comes after the right one. -/
  | gt
  /-- The operands are equal. -/
  | eq
  /-- The operands differ. -/
  | ne
  /-- The sum of numbers, or texts joined. -/
  | add
  /-- The difference of numbers. -/
  | sub
  /-- The product of numbers. -/
  | mul
  /-- The quotient of numbers. -/
  | div
  /-- The power of integers. -/
  | pow
  deriving DecidableEq, Inhabited

namespace BinaryOp

/-- The operators, in the order of their declaration. -/
def all : List BinaryOp := [and, or, lt, gt, eq, ne, add, sub, mul, div, pow]

/-- The written form of an operator. -/
def symbol : BinaryOp → String
  | and => "&&"
  | or => "||"
  | lt => "<"
  | gt => ">"
  | eq => "=="
  | ne => "!="
  | add => "+"
  | sub => "-"
  | mul => "*"
  | div => "/"
  | pow => "^"

/-- The operator with a given written form. -/
def ofSymbol? (s : String) : Option BinaryOp := all.find? fun op => op.symbol == s

@[simp]
theorem ofSymbol?_symbol (op : BinaryOp) : ofSymbol? op.symbol = some op := by
  cases op <;> decide

end BinaryOp

/-- An expression.  Every node has a span and a slot for its type. -/
inductive Expr where
  /-- A constant. -/
  | literal (value : Literal) (span : Span) (ty : Slot Ty)
  /-- An expression in parentheses. -/
  | group (inner : Expr) (span : Span) (ty : Slot Ty)
  /-- Two operands with an operator between them. -/
  | binary (op : BinaryOp) (left right : Expr) (span : Span) (ty : Slot Ty)
  /-- The value of a variable. -/
  | var (name : String) (binding : Slot VariableBinding) (span : Span) (ty : Slot Ty)
  /-- One element of the list that a variable holds. -/
  | element (name : String) (offset : Expr) (binding : Slot VariableBinding) (span : Span)
      (ty : Slot Ty)
  /-- A function applied to arguments. -/
  | call (name : String) (arguments : List Expr) (binding : Slot FunctionBinding) (span : Span)
      (ty : Slot Ty)
  /-- A list, element by element. -/
  | list (elements : List Expr) (span : Span) (ty : Slot Ty)
  deriving Inhabited

namespace Expr

/-- The span of an expression. -/
def span : Expr → Span
  | literal _ s _ | group _ s _ | binary _ _ _ s _ | var _ _ s _ | element _ _ _ s _
  | call _ _ _ s _ | list _ s _ => s

/-- The type annotation of an expression. -/
def ty : Expr → Slot Ty
  | literal _ _ t | group _ _ t | binary _ _ _ _ t | var _ _ _ t | element _ _ _ _ t
  | call _ _ _ _ t | list _ _ t => t

/-- The same expression at another place. -/
def withSpan (e : Expr) (s : Span) : Expr :=
  match e with
  | literal v _ t => literal v s t
  | group e _ t => group e s t
  | binary op l r _ t => binary op l r s t
  | var n b _ t => var n b s t
  | element n o b _ t => element n o b s t
  | call n as b _ t => call n as b s t
  | list es _ t => list es s t

end Expr

/-! ## Statements -/

mutual

/-- A statement. -/
inductive Stmt where
  /-- A call made for its effects. -/
  | expression (expr : Expr) (span : Span)
  /-- A new variable, with a type, an initial value or both. -/
  | declaration (name : String) (typeName : Option String) (value : Option Expr)
      (binding : Slot VariableBinding) (span : Span)
  /-- A new value for a variable or for an element of a list. -/
  | assignment (receiver value : Expr) (span : Span)
  /-- One of two blocks, after a condition. -/
  | ifElse (condition : Expr) (thenBody elseBody : List Stmt) (span : Span)
  /-- The first case whose value equals the condition's. -/
  | switch (condition : Expr) (cases : List Case) (span : Span)
  /-- A block repeated as long as a condition holds. -/
  | whileLoop (condition : Expr) (body : List Stmt) (span : Span)
  /-- The end of a function, with its result. -/
  | ret (value : Expr) (span : Span)

/-- One arm of a switch; the default arm has no value. -/
inductive Case where
  /-- The statements to execute when the value matches. -/
  | mk (value : Option Expr) (body : List Stmt) (span : Span)

end

instance : Inhabited Stmt := ⟨.ret default default⟩

instance : Inhabited Case := ⟨.mk none [] default⟩

/-- The span of a statement. -/
def Stmt.span : Stmt → Span
  | .expression _ s | .declaration _ _ _ _ s | .assignment _ _ s | .ifElse _ _ _ s
  | .switch _ _ s | .whileLoop _ _ s | .ret _ s => s

/-! ## Programs -/

/-- A variable of the whole program. -/
structure Global where
  /-- The variable's name. -/
  name : String
  /-- May it be assigned to? -/
  isMutable : Bool
  /-- The name of its type, if one is given. -/
  typeName : Option String
  /-- Its initial value, if one is given. -/
  value : Option Expr
  /-- The place of the declaration. -/
  span : Span
  /-- The slot for its binding. -/
  binding : Slot VariableBinding
  deriving Inhabited

/-- The definition of a function. -/
structure FunctionDef where
  /-- The function's name. -/
  name : String
  /-- The names of its parameters. -/
  parameters : List String
  /-- The names of its parameters' types. -/
  parameterTypeNames : List String
  /-- The name of its result's type, if one is given. -/
  returnTypeName : Option String
  /-- The statements to execute. -/
  body : List Stmt
  /-- The place of the definition. -/
  span : Span
  /-- The slot for its binding. -/
  binding : Slot FunctionBinding
  deriving Inhabited

/-- A whole program. -/
structure Program where
  /-- The variables of the whole program, in order. -/
  globals : List Global
  /-- The functions, in order. -/
  functions : List FunctionDef
  deriving Inhabited

end ImpTree
