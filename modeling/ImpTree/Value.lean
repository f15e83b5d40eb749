import ImpTree.Decimal

/-!
# Values

The values that a running program computes with.

* `Value.kind` — the name of a value's kind, for messages.
* `Value.same` — equality as the language sees it: decimals by size, lists element by element.
* `Value.order?` — the order of two values of one orderable kind.
* `Value.writes`, `Value.text` — the textual form, piece by piece and as a whole.
* `Value.exitCode` — the exit status that a program result stands for.
-/

namespace ImpTree

/-- A value of the language. -/
inductive Value where
  /-- The missing value. -/
  | nil
  /-- A truth value. -/
  | boolean (b : Bool)
  /-- A whole number of any size. -/
  | integer (n : Int)
  /-- A decimal fraction of any size. -/
  | decimal (d : Decimal)
  /-- A single character. -/
  | character (c : Char)
  /-- A text. -/
  | string (s : String)
  /-- A list of values. -/
  | list (items : List Value)
  deriving Inhabited

namespace Value

/-- The name of a value's kind. -/
def kind : Value → String
  | nil => "Nil"
  | boolean _ => "Boolean"
  | integer _ => "Integer"
  | decimal _ => "Decimal"
  | character _ => "Character"
  | string _ => "String"
  | list _ => "List"

/-! ## Equality and order -/

mutual

/-- Equality of values: never across kinds, decimals by size, lists element by element. -/
def same : Value → Value → Bool
  | nil, nil => true
  | boolean a, boolean b => a == b
  | integer a, integer b => a == b
  | decimal a, decimal b => a.same b
  | character a, character b => a == b
  | string a, string b => a == b
  | list as, list bs => sameAll as bs
  | _, _ => false

/-- Equality of two lists of values, element by element. -/
def sameAll : List Value → List Value → Bool
  | [], [] => true
  | a :: as, b :: bs => same a b && sameAll as bs
  | _, _ => false

end

/-- The order of two values, if they are of one kind and that kind has an order: `false` before
`true`, numbers by size, characters by code point, texts like dictionary words. -/
def order? : Value → Value → Option Ordering
  | boolean a, boolean b => some (compare a b)
  | integer a, integer b => some (compare a b)
  | decimal a, decimal b => some (a.order b)
  | character a, character b => some (compare a b)
  | string a, string b => some (compare a b)
  | _, _ => none

/-! ## Textual form -/

mutual

/-- The textual form of a value in the pieces in which it is written.  Some pieces may be empty. -/
def pieces : Value → List String
  | nil => ["null"]
  | boolean b => [if b then "true" else "false"]
  | integer n => [Integer.sign n, Integer.magnitude n]
  | decimal d => d.pieces
  | character c => [String.singleton c]
  | string s => [s]
  | list items => "[" :: (piecesFrom true items ++ ["]"])

/-- The pieces of the elements of a list; every one but the first follows a comma and a blank. -/
def piecesFrom (isFirst : Bool) : List Value → List String
  | [] => []
  | item :: rest =>
    (if isFirst then [] else [", "]) ++ (pieces item ++ piecesFrom false rest)

end

/-- The pieces that are really written: an empty piece is no write. -/
def writes (v : Value) : List String := v.pieces.filter (!·.isEmpty)

/-- The textual form of a value. -/
def text (v : Value) : String := String.join v.pieces

/-! ## Exit status -/

/-- The exit status that a program result stands for: an integer, brought into the range of 32-bit
integers; 0 for every other value. -/
def exitCode : Value → Int32
  | integer n => Int32.ofInt (max (-2147483648) (min n 2147483647))
  | _ => 0

end Value

end ImpTree
