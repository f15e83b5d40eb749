import ImpTree.Json

/-!
# Decoding JSON documents

How documents stand for data.  A decoder is given the number of brackets that may still be nested; a
bracket of a list, a record or a variant takes one, while brackets in parts that are not looked at
take none.

* `Json.fields?` — a record, written as an object or as a list of its fields.
* `Json.variant?` — one of several forms, written as an object with one member.
* `Json.required`, `Json.defaulted`, `Json.optional` — fields that must, need not, may be there.
-/

namespace ImpTree.Json

variable {α : Type}

/-! ## Plain data -/

/-- A truth value. -/
def bool? : Json → Option Bool
  | bool b => some b
  | _ => none

/-- A text. -/
def text? : Json → Option String
  | string text => text
  | _ => none

/-- The elements of a list. -/
def items? : Json → Option (List Json)
  | list items => some items
  | _ => none

/-- A text of exactly one character. -/
def char? (j : Json) : Option Char := do
  match (← j.text?).toList with
  | [c] => some c
  | _ => none

/-- An integer, written without point and exponent.  A negative zero is no integer. -/
def int? : Json → Option Int
  | number ⟨negative, whole, [], none⟩ =>
    if negative && Digits.value whole == 0 then none
    else some (signed negative (Digits.value whole))
  | _ => none

/-- An integer that fits into 64 bits without a sign. -/
def uint64? (j : Json) : Option UInt64 := do
  let n ← j.int?
  if 0 ≤ n ∧ n < Int.pow 2 64 then some (UInt64.ofNat n.toNat) else none

/-- An integer that fits into 32 bits with a sign. -/
def int32? (j : Json) : Option Int32 := do
  let n ← j.int?
  if -Int.pow 2 31 ≤ n ∧ n < Int.pow 2 31 then some (Int32.ofInt n) else none

/-! ## Records and variants -/

/-- Is a name given twice to members of an object? -/
def isRepeated (members : List (JsonText × Json)) (name : String) : Bool :=
  1 < members.countP fun member => member.1 == some name

/-- The fields of a record in the order of `names`.  In an object members of other names do not
count, but every name must be a proper text, and none of `names` may be repeated.  A list holds the
fields in order; it may stop early, but not before `least` of them. -/
def fields? (names : List String) (least : Nat) : Json → Option (List (Option Json))
  | object members =>
    if members.all (fun member => member.1.isSome) && !names.any (isRepeated members) then
      some (names.map fun name => members.lookup (some name))
    else none
  | list items =>
    if least ≤ items.length ∧ items.length ≤ names.length then
      some (items.map some ++ List.replicate (names.length - items.length) none)
    else none
  | _ => none

/-- The name and the content of a variant. -/
def variant? : Json → Option (String × Json)
  | object [(some name, content)] => some (name, content)
  | _ => none

/-- The name of a variant without content: a text, or an object with `null` for the content. -/
def word? : Nat → Json → Option String
  | _, string text => text
  | _ + 1, object [(some name, null)] => some name
  | _, _ => none

/-- A field that must be there. -/
def required (decode : Json → Option α) (field : Option Json) : Option α := field.bind decode

/-- A field with a value of its own when it is not there. -/
def defaulted (default : α) (decode : Json → Option α) : Option Json → Option α
  | some j => decode j
  | none => some default

/-- A field that may be missing or `null`. -/
def optional (decode : Json → Option α) : Option Json → Option (Option α)
  | none | some null => some none
  | some j => (decode j).map some

/-- The brackets that may be nested in a document. -/
def maxDepth : Nat := 127

/-- A list, each element by the same decoder. -/
def listOf (decode : Nat → Json → Option α) : Nat → Json → Option (List α)
  | 0, _ => none
  | depth + 1, j => do (← j.items?).mapM (decode depth)

end ImpTree.Json
