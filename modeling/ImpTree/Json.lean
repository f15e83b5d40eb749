import ImpTree.Digits

/-!
# JSON documents

A document as it is written: members keep their order and may repeat a name, numbers keep their
digits.

* `Json` — the documents.
* `Json.compact` — the form without any blank.
* `Json.pretty` — the form with one member or element a line, indented by two blanks a level.
* `Json.escape` — how a character stands inside a text.
-/

namespace ImpTree

/-! ## Documents -/

/-- A number as it is written. -/
structure Numeral where
  /-- Is there a minus in front? -/
  negative : Bool
  /-- The digits before the point. -/
  whole : List Char
  /-- The digits after the point; without any there is no point. -/
  fraction : List Char
  /-- The exponent, if there is one: is there a minus in front, and its digits. -/
  exponent : Option (Bool × List Char)
  deriving DecidableEq, Inhabited

/-- A text in a document; none for one in which half a surrogate pair is escaped, which spells no
characters. -/
abbrev JsonText := Option String

/-- A JSON document. -/
inductive Json where
  /-- The word `null`. -/
  | null
  /-- The words `true` and `false`. -/
  | bool (b : Bool)
  /-- A number. -/
  | number (n : Numeral)
  /-- A text in quotes. -/
  | string (text : JsonText)
  /-- A list of documents. -/
  | list (items : List Json)
  /-- Named documents. -/
  | object (members : List (JsonText × Json))
  deriving Inhabited

/-! ## Numbers -/

namespace Numeral

/-- A natural number. -/
def ofNat (n : Nat) : Numeral := ⟨false, Digits.ofNat n, [], none⟩

/-- An integer. -/
def ofInt (n : Int) : Numeral := ⟨decide (n < 0), Digits.ofNat n.natAbs, [], none⟩

/-- The written form of a number.  An exponent always has a sign. -/
def chars (n : Numeral) : List Char :=
  (if n.negative then ['-'] else []) ++ n.whole ++
    (if n.fraction.isEmpty then [] else '.' :: n.fraction) ++
    match n.exponent with
    | none => []
    | some (negative, digits) => 'e' :: (if negative then '-' else '+') :: digits

end Numeral

namespace Json

/-- A natural number. -/
def nat (n : Nat) : Json := .number (.ofNat n)

/-- An integer. -/
def int (n : Int) : Json := .number (.ofInt n)

/-- A text. -/
def text (s : String) : Json := .string (some s)

/-- Named documents, all names being proper texts. -/
def record (members : List (String × Json)) : Json :=
  .object (members.map fun member => (some member.1, member.2))

/-- A document, or `null` where there is none. -/
def option {α : Type} (f : α → Json) : Option α → Json
  | some a => f a
  | none => null

/-! ## Texts -/

/-- A digit of a hexadecimal number, in lower case. -/
def hexDigit (n : Nat) : Char := Nat.digitChar n

/-- How a character stands inside a text: quotes, backslashes and control characters are escaped,
the latter by a letter where there is one. -/
def escape (c : Char) : List Char :=
  if c = '"' then ['\\', '"']
  else if c = '\\' then ['\\', '\\']
  else if 0x20 ≤ c.toNat then [c]
  else if c = '\x08' then ['\\', 'b']
  else if c = '\t' then ['\\', 't']
  else if c = '\n' then ['\\', 'n']
  else if c = '\x0c' then ['\\', 'f']
  else if c = '\r' then ['\\', 'r']
  else ['\\', 'u', '0', '0', hexDigit (c.toNat / 16), hexDigit (c.toNat % 16)]

/-- A text in quotes, before other characters.  Where there is no text, half a surrogate pair stands
for it. -/
def quoteBefore (text : JsonText) (rest : List Char) : List Char :=
  match text with
  | some s => '"' :: (s.toList.flatMap escape ++ '"' :: rest)
  | none => '"' :: '\\' :: 'u' :: 'd' :: '8' :: '0' :: '0' :: '"' :: rest

/-! ## The compact form -/

mutual

/-- The compact form of a document, before other characters. -/
def compactBefore : Json → List Char → List Char
  | null, rest => 'n' :: 'u' :: 'l' :: 'l' :: rest
  | bool true, rest => 't' :: 'r' :: 'u' :: 'e' :: rest
  | bool false, rest => 'f' :: 'a' :: 'l' :: 's' :: 'e' :: rest
  | number n, rest => n.chars ++ rest
  | string text, rest => quoteBefore text rest
  | list items, rest => '[' :: compactItems true items (']' :: rest)
  | object members, rest => '\x7b' :: compactMembers true members ('\x7d' :: rest)

/-- The elements of a list, each but the first after a comma. -/
def compactItems (isFirst : Bool) : List Json → List Char → List Char
  | [], rest => rest
  | item :: items, rest =>
    (if isFirst then id else (',' :: ·)) (compactBefore item (compactItems false items rest))

/-- The members of an object, each but the first after a comma. -/
def compactMembers (isFirst : Bool) : List (JsonText × Json) → List Char → List Char
  | [], rest => rest
  | (name, value) :: members, rest =>
    (if isFirst then id else (',' :: ·))
      (quoteBefore name (':' :: compactBefore value (compactMembers false members rest)))

end

/-- The form of a document without any blank. -/
def compact (j : Json) : String := String.ofList (j.compactBefore [])

/-! ## The indented form -/

/-- A new line at a level, before other characters. -/
def lineBefore (level : Nat) (rest : List Char) : List Char :=
  '\n' :: (List.replicate (2 * level) ' ' ++ rest)

mutual

/-- The indented form of a document at a level, before other characters. -/
def prettyBefore (level : Nat) : Json → List Char → List Char
  | list [], rest => '[' :: ']' :: rest
  | list (item :: items), rest =>
    '[' :: lineBefore (level + 1) (prettyBefore (level + 1) item
      (prettyItems (level + 1) items (lineBefore level (']' :: rest))))
  | object [], rest => '\x7b' :: '\x7d' :: rest
  | object ((name, value) :: members), rest =>
    '\x7b' :: lineBefore (level + 1) (quoteBefore name (':' :: ' ' :: prettyBefore (level + 1) value
      (prettyMembers (level + 1) members (lineBefore level ('\x7d' :: rest)))))
  | null, rest => compactBefore null rest
  | bool b, rest => compactBefore (bool b) rest
  | number n, rest => compactBefore (number n) rest
  | string text, rest => compactBefore (string text) rest

/-- The elements of a list after the first, each after a comma and on a line of its own. -/
def prettyItems (level : Nat) : List Json → List Char → List Char
  | [], rest => rest
  | item :: items, rest =>
    ',' :: lineBefore level (prettyBefore level item (prettyItems level items rest))

/-- The members of an object after the first, each after a comma and on a line of its own. -/
def prettyMembers (level : Nat) : List (JsonText × Json) → List Char → List Char
  | [], rest => rest
  | (name, value) :: members, rest =>
    ',' :: lineBefore level (quoteBefore name (':' :: ' ' :: prettyBefore level value
      (prettyMembers level members rest)))

end

/-- The form of a document with one member or element a line. -/
def pretty (j : Json) : String := String.ofList (j.prettyBefore 0 [])

end Json

end ImpTree
