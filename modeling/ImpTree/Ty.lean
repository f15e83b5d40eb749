/-!
# Types

The static types of the language, their written names, and the relation that says which values may
be stored where.

* `Ty.text` — the written name: `Integer`, `List<Integer>`, …
* `Ty.accepts` — may a value of one type be stored where another is expected?
* `Ty.builtins` — the eight types that have a name of their own.
-/

namespace ImpTree

/-- A static type. -/
inductive Ty where
  /-- The type of the missing value. -/
  | nil
  /-- Truth values. -/
  | boolean
  /-- Whole numbers. -/
  | integer
  /-- Decimal fractions. -/
  | decimal
  /-- Single characters. -/
  | character
  /-- Texts. -/
  | string
  /-- Every value belongs to this type. -/
  | any
  /-- Integers, decimals, characters and texts, the values with an order of their own. -/
  | comparable
  /-- Lists all of whose elements have one type. -/
  | list (element : Ty)
  deriving DecidableEq, Inhabited

namespace Ty

/-- The types with a name of their own, in the order in which they are listed to a reader. -/
def builtins : List Ty :=
  [nil, boolean, integer, decimal, character, string, any, comparable]

/-- The written name of a type. -/
def text : Ty → String
  | nil => "Nil"
  | boolean => "Boolean"
  | integer => "Integer"
  | decimal => "Decimal"
  | character => "Character"
  | string => "String"
  | any => "Any"
  | comparable => "Comparable"
  | list element => s!"List<{element.text}>"

/-- The types that arithmetic works on. -/
def isNumeric : Ty → Bool
  | integer | decimal => true
  | _ => false

/-- The types with an order of their own. -/
def isComparable : Ty → Bool
  | integer | decimal | character | string => true
  | _ => false

/-- The element type of a list type. -/
def element? : Ty → Option Ty
  | list element => some element
  | _ => none

/-- A value of type `source` may be stored where `target` is expected if the types are the same, if
`target` is `any`, or if `target` is `comparable` and `source` has an order of its own. -/
def accepts (target source : Ty) : Bool :=
  if target = source then true
  else
    match target with
    | any => true
    | comparable => source.isComparable
    | _ => false

@[simp]
theorem accepts_self (t : Ty) : t.accepts t = true := by simp [accepts]

@[simp]
theorem any_accepts (t : Ty) : any.accepts t = true := by simp [accepts]

end Ty

end ImpTree
