import ImpTree.Json

/-!
# Reading JSON documents

A strict reader: no comments, no superfluous commas, no control characters inside texts, blanks only
between tokens, nothing after the document.

* `Json.readNumber`, `Json.readText` — the tokens with a structure of their own.
* `Json.read` — a document at the start of a text, with what follows it.
* `Json.parse?` — a text that is one document.
-/

namespace ImpTree.Json

/-! ## Blanks and numbers -/

/-- The characters that may stand between tokens. -/
def isSpace (c : Char) : Bool := c == ' ' || c == '\t' || c == '\n' || c == '\r'

/-- The text from the first character on that is no blank. -/
def skipSpace (cs : List Char) : List Char := cs.dropWhile isSpace

/-- The digits at the start of a text, and what follows them. -/
def digitRun (cs : List Char) : List Char × List Char :=
  (cs.takeWhile Char.isDigit, cs.dropWhile Char.isDigit)

/-- At least one digit, and what follows the digits. -/
def readDigits (cs : List Char) : Option (List Char × List Char) :=
  match digitRun cs with
  | ([], _) => none
  | (digits, rest) => some (digits, rest)

/-- The digits after a point, if a point follows. -/
def readFraction : List Char → Option (List Char × List Char)
  | '.' :: rest => readDigits rest
  | rest => some ([], rest)

/-- The sign of an exponent. -/
def exponentSign : List Char → Bool × List Char
  | '-' :: rest => (true, rest)
  | '+' :: rest => (false, rest)
  | rest => (false, rest)

/-- The exponent, if one follows. -/
def readExponent : List Char → Option (Option (Bool × List Char) × List Char)
  | 'e' :: rest | 'E' :: rest => do
    let (negative, rest) := exponentSign rest
    let (digits, rest) ← readDigits rest
    return (some (negative, digits), rest)
  | rest => some (none, rest)

/-- The minus of a number. -/
def readMinus : List Char → Bool × List Char
  | '-' :: rest => (true, rest)
  | rest => (false, rest)

/-- A number.  Only a lone zero begins with a zero. -/
def readNumber (cs : List Char) : Option (Numeral × List Char) := do
  let (negative, rest) := readMinus cs
  let (whole, rest) ← readDigits rest
  guard (whole.head? ≠ some '0' ∨ whole.length = 1)
  let (fraction, rest) ← readFraction rest
  let (exponent, rest) ← readExponent rest
  return (⟨negative, whole, fraction, exponent⟩, rest)

/-! ## Texts -/

/-- What stands at one place of a text: a character, or an escaped 16-bit unit. -/
inductive TextPiece where
  /-- A character, plain or escaped by a letter. -/
  | plain (c : Char)
  /-- An escaped unit, a character or half of one. -/
  | unit (n : Nat)

/-- The character that a letter after a backslash stands for. -/
def unescape? (c : Char) : Option Char :=
  match c with
  | '"' => some '"'
  | '\\' => some '\\'
  | '/' => some '/'
  | 'b' => some '\x08'
  | 'f' => some '\x0c'
  | 'n' => some '\n'
  | 'r' => some '\r'
  | 't' => some '\t'
  | _ => none

/-- The value of a hexadecimal digit of either case. -/
def hexValue? (c : Char) : Option Nat :=
  if c.isDigit then some (c.toNat - 48)
  else if 97 ≤ c.toNat ∧ c.toNat ≤ 102 then some (c.toNat - 87)
  else if 65 ≤ c.toNat ∧ c.toNat ≤ 70 then some (c.toNat - 55)
  else none

/-- The value of four hexadecimal digits. -/
def hexUnit? (a b c d : Char) : Option Nat := do
  let a ← hexValue? a
  let b ← hexValue? b
  let c ← hexValue? c
  let d ← hexValue? d
  return ((a * 16 + b) * 16 + c) * 16 + d

/-- The pieces of a text up to its closing quote, and what follows it; `seen` holds the pieces
before, the latest first. -/
def readPieces (seen : List TextPiece) : List Char → Option (List TextPiece × List Char)
  | [] => none
  | '"' :: rest => some (seen.reverse, rest)
  | '\\' :: 'u' :: a :: b :: c :: d :: rest =>
    match hexUnit? a b c d with
    | some n => readPieces (.unit n :: seen) rest
    | none => none
  | '\\' :: c :: rest =>
    match unescape? c with
    | some c => readPieces (.plain c :: seen) rest
    | none => none
  | c :: rest => if c.toNat < 0x20 then none else readPieces (.plain c :: seen) rest

/-- Is the unit the first half of a surrogate pair? -/
def isHighHalf (n : Nat) : Bool := 0xD800 ≤ n && n < 0xDC00

/-- Is the unit the second half of a surrogate pair? -/
def isLowHalf (n : Nat) : Bool := 0xDC00 ≤ n && n < 0xE000

/-- The characters that pieces spell, if every half of a surrogate pair has its other half; `seen`
holds the characters before, the latest first. -/
def spell? (seen : List Char) : List TextPiece → Option (List Char)
  | [] => some seen.reverse
  | .plain c :: rest => spell? (c :: seen) rest
  | .unit high :: .unit low :: rest =>
    if isHighHalf high then
      if isLowHalf low then
        spell? (Char.ofNat (0x10000 + (high - 0xD800) * 0x400 + (low - 0xDC00)) :: seen) rest
      else none
    else if isLowHalf high then none
    else spell? (Char.ofNat high :: seen) (.unit low :: rest)
  | .unit n :: rest =>
    if isHighHalf n || isLowHalf n then none else spell? (Char.ofNat n :: seen) rest

/-- A text after its opening quote, and what follows its closing quote. -/
def readText (cs : List Char) : Option (JsonText × List Char) := do
  let (pieces, rest) ← readPieces [] cs
  return ((spell? [] pieces).map String.ofList, rest)

/-! ## Documents -/

/-- Goes past one expected character, after blanks. -/
def expect (c : Char) (cs : List Char) : Option (List Char) :=
  match skipSpace cs with
  | d :: rest => if c = d then some rest else none
  | [] => none

mutual

/-- A document at the start of a text, after blanks, and what follows it.  The first argument bounds
the steps. -/
def read : Nat → List Char → Option (Json × List Char)
  | 0, _ => none
  | steps + 1, cs =>
    match skipSpace cs with
    | 'n' :: 'u' :: 'l' :: 'l' :: rest => some (null, rest)
    | 't' :: 'r' :: 'u' :: 'e' :: rest => some (bool true, rest)
    | 'f' :: 'a' :: 'l' :: 's' :: 'e' :: rest => some (bool false, rest)
    | '"' :: rest => do
      let (text, rest) ← readText rest
      return (string text, rest)
    | '[' :: rest =>
      match expect ']' rest with
      | some rest => some (list [], rest)
      | none => do
        let (items, rest) ← readItems steps rest
        return (list items, rest)
    | '\x7b' :: rest =>
      match expect '\x7d' rest with
      | some rest => some (object [], rest)
      | none => do
        let (members, rest) ← readMembers steps rest
        return (object members, rest)
    | rest => do
      let (n, rest) ← readNumber rest
      return (number n, rest)

/-- One or more elements up to the closing bracket of their list. -/
def readItems : Nat → List Char → Option (List Json × List Char)
  | 0, _ => none
  | steps + 1, cs => do
    let (item, rest) ← read steps cs
    match skipSpace rest with
    | ',' :: rest =>
      let (items, rest) ← readItems steps rest
      return (item :: items, rest)
    | ']' :: rest => return ([item], rest)
    | _ => none

/-- One or more members up to the closing brace of their object. -/
def readMembers : Nat → List Char → Option (List (JsonText × Json) × List Char)
  | 0, _ => none
  | steps + 1, cs => do
    let rest ← expect '"' cs
    let (name, rest) ← readText rest
    let rest ← expect ':' rest
    let (value, rest) ← read steps rest
    match skipSpace rest with
    | ',' :: rest =>
      let (members, rest) ← readMembers steps rest
      return ((name, value) :: members, rest)
    | '\x7d' :: rest => return ([(name, value)], rest)
    | _ => none

end

/-- The document that a text is.  Every two steps of the reader take at least one character, so the
steps suffice for every text. -/
def parse? (s : String) : Option Json :=
  let cs := s.toList
  match read (2 * cs.length + 2) cs with
  | some (j, rest) => if (skipSpace rest).isEmpty then some j else none
  | none => none

end ImpTree.Json
